import SqlLayout.Sql.Parser.Table

/-!
Statements that change rows, and the items of projections that they share with queries.
-/

namespace SqlLayout.Sql.Parser

open Text (commas)

/-- One item of a projection. -/
def target (g : Grammar) : Parser Target := do
  match ← starOrExpr g with
  | .star => return .mk .star none
  | .pathStar names => return .mk (.pathStar names) none
  | .ident ⟨name, none⟩ =>
    if Text.eqIgnoreCase name "from" then
      failHere ("Expected an expression, found: " ++ name)
    else return .mk (.ident ⟨name, none⟩) (← alias? reservedForColumn)
  | e => return .mk e (← alias? reservedForColumn)

/-- The rows that a statement gives back. -/
def returning (g : Grammar) : Parser (Option (List Target)) :=
  afterWord "RETURNING" (commaSeparated (target g))

/-- An assignment. -/
def assignment (g : Grammar) : Parser Assignment := do
  let target ← if ← symbol? "(" then do
      let names ← commaSeparated objectName
      symbol ")"
      pure ("(" ++ commas (names.map ObjectName.print) ++ ")")
    else do pure (← objectName).print
  symbol "="
  return ⟨target, ← g.anyExpr⟩

/-- One or more assignments with commas between them. -/
def assignments (g : Grammar) : Parser (List Assignment) :=
  commaSeparated (assignment g)

/-- What to do on a conflict, in the words outside PostgreSQL. -/
def conflictWord : Parser (Option String) := do
  if (← nextIsWord "OR") &&
      ["REPLACE", "ROLLBACK", "ABORT", "FAIL", "IGNORE"].contains (← peekAt 1).key then
    let _ ← next
    return some ("OR " ++ (← next).key)
  else return none

/-- Rows between parentheses after `VALUES`; the first component tells that `ROW` was written. -/
def rows (g : Grammar) : Parser (Bool × List (List Expr)) := do
  let marked ← commaSeparated do
    let explicit ← word? "ROW"
    return (explicit, ← parens g.exprs)
  return (marked.any (·.1), marked.map (·.2))

/-- The clause of an `INSERT` for rows that are there already, after `ON`. -/
def onInsert (g : Grammar) : Parser OnInsert := do
  if ← word? "CONFLICT" then
    let target ← do
      if ← words? ["ON", "CONSTRAINT"] then pure (some (ConflictTarget.onConstraint (← objectName)))
      else if ← nextIs "(" then pure (some (ConflictTarget.columns (← columnList false)))
      else pure none
    word "DO"
    if ← word? "NOTHING" then return .conflict target .nothing
    else
      words ["UPDATE", "SET"]
      let sets ← assignments g
      let condition ← afterWord "WHERE" g.anyExpr
      return .conflict target (.update sets condition)
  else
    words ["DUPLICATE", "KEY", "UPDATE"]
    return .duplicateKey (← assignments g)

/-- A format of files. -/
def fileFormat : Parser String := do
  let t ← next
  if ["AVRO", "ORC", "PARQUET", "SEQUENCEFILE", "TEXTFILE", "RCFILE", "JSONFILE"].contains t.key
  then return t.key
  else expectedBut "fileformat" t

/-- A query written to a directory, after the word `DIRECTORY`. -/
def directory (g : Grammar) (lead : String) : Parser String := do
  let path ← stringText
  let format ← afterWords ["STORED", "AS"] fileFormat
  let source ← g.query
  return lead ++ " DIRECTORY '" ++ path ++ "'" ++ clause " STORED AS " format ++ " " ++ source.print

/-- The columns, the partition and the rows of an `INSERT`. -/
def insertSource (g : Grammar) : Parser (List Ident × Option String × Option Query) := do
  if ← words? ["DEFAULT", "VALUES"] then return ([], none, none)
  let queryNext := (← nextIs "(") && (← peekAt 1).key == "SELECT"
  let (columns, partition) ← if queryNext then pure ([], none) else do
    let columns ← columnList true
    let partition ← afterWord "PARTITION" (parens g.exprs)
    pure (columns, partition.map fun es => commas (es.map Expr.print))
  if (← nextIsWord "FORMAT") || (← nextIsWord "SETTINGS") then return (columns, partition, none)
  else return (columns, partition, some (← g.query))

/-- An `INSERT` after its first word, or the text of a query that is written to a directory. -/
def insert (g : Grammar) : Parser (Insert ⊕ String) := do
  let conflict ← conflictWord
  let overwrite ← word? "OVERWRITE"
  let into ← word? "INTO"
  let isLocal ← word? "LOCAL"
  let lead := "INSERT" ++ (if overwrite then " OVERWRITE" else "")
  if ← word? "DIRECTORY" then
    return .inr (← directory g (lead ++ (if isLocal then " LOCAL" else "")))
  let keyword ← word? "TABLE"
  let table ← objectName
  let aliasName ← afterWord "AS" ident
  let (columns, partition, source) ← insertSource g
  let on ← afterWord "ON" (onInsert g)
  let returning ← returning g
  let lead := match conflict with
    | some c => "INSERT " ++ c ++ " INTO"
    | none => lead ++ (if into then " INTO" else "") ++ (if keyword then " TABLE" else "")
  return .inl { lead, foreign := conflict.isSome || overwrite || partition.isSome,
                table := table.print, aliasName, columns := columns.map Ident.print, partition, source,
                on, returning }

/-- An `UPDATE` after its first word. -/
def update (g : Grammar) : Parser Update := do
  let or ← conflictWord
  let table ← tableWithJoins g
  let before ← afterWord "FROM" (tables g)
  word "SET"
  let sets ← assignments g
  let after ← if before.isNone then afterWord "FROM" (tables g) else pure none
  let condition ← afterWord "WHERE" g.anyExpr
  let returning ← returning g
  let limit ← afterWord "LIMIT" g.anyExpr
  return { or, table, assignments := sets, fromFirst := before.isSome, tables := before.or after,
           condition, returning, limit }

/-- A limit; `ALL` is none. -/
def limitCount (g : Grammar) : Parser (Option Expr) := do
  if ← word? "ALL" then return none else return some (← g.anyExpr)

/-- A `DELETE` after its first word. -/
def delete (g : Grammar) : Parser Delete := do
  let names ← if ← word? "FROM" then pure [] else do
    let names ← commaSeparated objectName
    word "FROM"
    pure names
  let targets ← tables g
  let others ← afterWord "USING" (tables g)
  let condition ← afterWord "WHERE" g.anyExpr
  let returning ← returning g
  let order ← orderBy g
  let limit ← if ← word? "LIMIT" then limitCount g else pure none
  return { names, tables := targets, others, condition, returning, orderBy := order, limit }

/-- The table that the rows go into, after the first word. -/
def selectInto : Parser String := do
  let temporary ← oneOf? ["TEMP", "TEMPORARY"]
  let unlogged ← word? "UNLOGGED"
  let keyword ← word? "TABLE"
  let name ← objectName
  return "INTO" ++ (if temporary.isSome then " TEMPORARY" else "") ++
    (if unlogged then " UNLOGGED" else "") ++ (if keyword then " TABLE" else "") ++ " " ++ name.print

/-- What a `MERGE` does with the rows of one clause; `kind` names the clause, and `isNew` tells that
its rows are not in the table yet. -/
def mergeAction (g : Grammar) (kind : String) (isNew : Bool) : Parser String := do
  let t ← peek
  let allow (when : Bool) : Parser Unit := do
    unless when do
      failWith (t.key ++ " is not allowed in a " ++ kind ++ " merge clause" ++ t.placeText)
  match ← oneOf? ["UPDATE", "INSERT", "DELETE"] with
  | some "UPDATE" =>
    allow !isNew
    word "SET"
    let sets ← assignments g
    let condition ← afterWord "WHERE" g.anyExpr
    let removal ← afterWord "DELETE" do
      word "WHERE"
      g.anyExpr
    return "UPDATE SET " ++ commas (sets.map Assignment.print) ++
      clause " WHERE " (condition.map Expr.print) ++
      clause " DELETE WHERE " (removal.map Expr.print)
  | some "DELETE" =>
    allow !isNew
    return "DELETE"
  | some _ =>
    allow isNew
    let columns ← columnList true
    word "VALUES"
    let (explicit, rows) ← rows g
    let condition ← afterWord "WHERE" g.anyExpr
    return "INSERT " ++
      (if columns.isEmpty then "" else "(" ++ commas (columns.map Ident.print) ++ ") ") ++
      (Body.values explicit false rows).print ++ clause " WHERE " (condition.map Expr.print)
  | none => failHere "expected UPDATE, DELETE or INSERT in merge clause"

/-- One clause of a `MERGE`, if one follows. -/
def mergeClause? (g : Grammar) : Parser (Option String) := afterWord "WHEN" do
  let negated ← word? "NOT"
  word "MATCHED"
  let side ← do
    if !negated then pure ""
    else if ← words? ["BY", "SOURCE"] then pure " BY SOURCE"
    else if ← words? ["BY", "TARGET"] then pure " BY TARGET"
    else pure ""
  let kind := notWord negated ++ "MATCHED" ++ side
  let condition ← afterWord "AND" g.anyExpr
  word "THEN"
  let action ← mergeAction g kind (negated && side != " BY SOURCE")
  return "WHEN " ++ kind ++ clause " AND " (condition.map Expr.print) ++ " THEN " ++ action

/-- The rows that a `MERGE` gives back. -/
def mergeOutput? (g : Grammar) : Parser (Option String) := do
  match ← oneOf? ["OUTPUT", "RETURNING"] with
  | some k =>
    let targets ← commaSeparated (target g)
    let into ← if k == "OUTPUT" then afterWord "INTO" selectInto else pure none
    return some (k ++ " " ++ commas (targets.map Target.print) ++ clause " " into)
  | none => return none

/-- A `MERGE` after its first word, as text. -/
def merge (g : Grammar) : Parser String := do
  let into ← word? "INTO"
  let target ← table g
  word "USING"
  let source ← table g
  word "ON"
  let condition ← g.anyExpr
  let clauses ← many (mergeClause? g)
  let output ← mergeOutput? g
  return "MERGE" ++ (if into then " INTO" else "") ++ " " ++ target.print ++ " USING " ++
    source.print ++ " ON " ++ condition.print ++ " " ++ Text.joinWith " " clauses ++ clause " " output

end SqlLayout.Sql.Parser
