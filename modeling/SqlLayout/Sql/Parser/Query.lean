import SqlLayout.Sql.Parser.Mutation

/-!
Queries: the clauses of a `SELECT`, the operators between queries, and the clauses around them.
-/

namespace SqlLayout.Sql.Parser

open Text (commas)

/-! ### The clauses of a select -/

/-- The treatment of equal rows. -/
def distinct (g : Grammar) : Parser Distinct := do
  let t ← peek
  let all ← word? "ALL"
  if ← word? "DISTINCT" then
    if all then bothAllAndDistinct t
    else if ← word? "ON" then return .on (← parens (commaSeparatedUntil ")" g.anyExpr))
    else return .rows
  else return .none

/-- A limit in front of the projection, after its first word. -/
def top (g : Grammar) : Parser String := do
  let count ← if ← symbol? "(" then do
      let e ← g.anyExpr
      symbol ")"
      pure ("(" ++ e.print ++ ")")
    else do pure (toString (← natural))
  let percent ← word? "PERCENT"
  let ties ← words? ["WITH", "TIES"]
  return "TOP " ++ count ++ (if percent then " PERCENT" else "") ++ (if ties then " WITH TIES" else "")

/-- A lateral view, after its first words. -/
def lateralView (g : Grammar) : Parser String := do
  let outer ← word? "OUTER"
  let e ← g.anyExpr
  let name ← objectName
  let names ← commaSeparated (alias? ["WHERE", "GROUP", "CLUSTER", "HAVING", "LATERAL"])
  let columns := names.filterMap id
  return " LATERAL VIEW" ++ (if outer then " OUTER" else "") ++ " " ++ e.print ++ " " ++ name.print ++
    listClause " AS " (columns.map Ident.print)

/-- Expressions in parentheses, possibly none. -/
def tuple (g : Grammar) : Parser (List Expr) := do
  symbol "("
  if ← symbol? ")" then return []
  let es ← g.exprs
  symbol ")"
  return es

/-- Expressions in parentheses, or one expression without them. -/
def tupleOrExpr (g : Grammar) : Parser (List Expr) := do
  if ← nextIs "(" then tuple g else return [← g.anyExpr]

/-- Sets of expressions in parentheses; a set of one stands without parentheses of its own when
`lift` is set. -/
def setsText (lift : Bool) (sets : List (List Expr)) : String :=
  " (" ++ commas (sets.map fun
    | [e] => if lift then e.print else "(" ++ e.print ++ ")"
    | es => "(" ++ commas (es.map Expr.print) ++ ")") ++ ")"

/-- One item of a grouping. -/
def groupItem (g : Grammar) : Parser Expr := do
  if ← words? ["GROUPING", "SETS"] then
    return .phrase ("GROUPING SETS" ++ setsText false (← parens (commaSeparated (tuple g))))
  else if ← word? "CUBE" then
    return .phrase ("CUBE" ++ setsText true (← parens (commaSeparated (tupleOrExpr g))))
  else if ← word? "ROLLUP" then
    return .phrase ("ROLLUP" ++ setsText true (← parens (commaSeparated (tupleOrExpr g))))
  else if ← symbols? ["(", ")"] then return .phrase "()"
  else g.anyExpr

/-- A grouping: its items, whether it is by all, and the sets after it. -/
def groupBy (g : Grammar) : Parser (List Expr × Bool × List String) := do
  if ← words? ["GROUP", "BY"] then
    let all ← word? "ALL"
    let items ← if all then pure [] else commaSeparated (groupItem g)
    let sets ← afterWords ["GROUPING", "SETS"] (parens (commaSeparated (tupleOrExpr g)))
    return (items, all, sets.toList.map fun s => "GROUPING SETS" ++ setsText false s)
  else return ([], false, [])

/-- A named window of a `WINDOW` clause. -/
def namedWindow (g : Grammar) : Parser String := do
  let name ← ident
  word "AS"
  symbol "("
  let w ← windowSpec g (operand g ((← remaining) + 1))
  return name.print ++ " AS" ++ String.ofList (w.print.toList.drop " OVER".length)

/-- The named windows and the condition on windows, in either order. -/
def windowsAndQualify (g : Grammar) : Parser (List String × Option String × Bool) := do
  if ← word? "WINDOW" then
    let windows ← commaSeparated (namedWindow g)
    let qualify ← afterWord "QUALIFY" g.anyExpr
    return (windows, qualify.map Expr.print, true)
  else if ← word? "QUALIFY" then
    let qualify ← g.anyExpr
    let windows ← if ← word? "WINDOW" then commaSeparated (namedWindow g) else pure []
    return (windows, some qualify.print, false)
  else return ([], none, false)

/-- A `SELECT` after its first word. -/
def select (g : Grammar) : Parser Select := do
  let distinct ← distinct g
  let top ← afterWord "TOP" (top g)
  let targets ← if ← nextIsWord "FROM" then pure [] else commaSeparated (target g)
  let into ← afterWord "INTO" selectInto
  let sources ← if ← word? "FROM" then tables g else pure []
  let views ← repeatFrom ([] : List String) fun acc => do
    if ← words? ["LATERAL", "VIEW"] then return .inl (acc ++ [← lateralView g]) else return .inr acc
  let condition ← afterWord "WHERE" g.anyExpr
  let (groups, groupAll, modifiers) ← groupBy g
  let texts (ks : List String) : Parser (List String) := do
    if ← words? ks then return (← g.exprs).map Expr.print else return []
  let clusterBy ← texts ["CLUSTER", "BY"]
  let distributeBy ← texts ["DISTRIBUTE", "BY"]
  let sortBy ← if ← words? ["SORT", "BY"] then do pure ((← sortItems g).map SortItem.print)
    else pure []
  let having ← afterWord "HAVING" g.anyExpr
  let (windows, qualify, windowsFirst) ← windowsAndQualify g
  return .mk distinct top targets into sources views condition groups groupAll modifiers clusterBy
    distributeBy sortBy having windows qualify windowsFirst

/-! ### Bodies -/

/-- The text of a `TABLE` body, after its first word. Three tokens are looked at, and all of them
are taken. -/
def tableBody : Parser String := do
  let first ← next
  let second ← next
  let third ← next
  let nameOf (what : String) (t : Lexeme) : Parser String := match t.token with
    | .word s | .delimited s => return s
    | _ => expectedBut what t
  if second.token == .symbol "." then
    let schema ← nameOf "Schema name" first
    return "TABLE " ++ schema ++ "." ++ (← nameOf "Table name" third)
  else return "TABLE " ++ (← nameOf "Table name" first)

/-- A body without an operator between queries. -/
def simpleBody (g : Grammar) : Parser Body := do
  if ← word? "SELECT" then return .select (← select g)
  else if ← symbol? "(" then
    let q ← g.query
    symbol ")"
    return .query q
  else match ← oneOf? ["VALUES", "VALUE", "TABLE"] with
    | some "TABLE" => return .other (← tableBody)
    | some k =>
      let (explicit, rows) ← rows g
      return .values explicit (k == "VALUE") rows
    | none => expected "SELECT, VALUES, or a subquery in the query body"

/-- The words after an operator between queries. -/
def setQuantifier : Parser SetQuantifier := do
  if ← words? ["DISTINCT", "BY", "NAME"] then return .distinctByName
  else if ← words? ["BY", "NAME"] then return .byName
  else if ← word? "ALL" then
    if ← words? ["BY", "NAME"] then return .allByName else return .all
  else if ← word? "DISTINCT" then return .distinct
  else return .none

/-- Bodies joined from left to right by the operators of a table; `part` reads each of them. -/
def setOperations (operators : List (String × SetOperator)) (part : Parser Body) :
    Parser Body := do
  repeatFrom (← part) fun left => do
    match operators.lookup (← peek).key with
    | some op =>
      let _ ← next
      let quantifier ← setQuantifier
      return .inl (.setOp left op quantifier (← part))
    | none => return .inr left

/-- A body. Intersections bind more tightly than the other operators between queries. -/
def body (g : Grammar) : Parser Body :=
  setOperations [("UNION", .union), ("EXCEPT", .except), ("MINUS", .minus)]
    (setOperations [("INTERSECT", .intersect)] (simpleBody g))

/-! ### Queries -/

/-- One named query of a `WITH` clause. -/
def cte (g : Grammar) : Parser Cte := do
  let name ← ident
  let columns ← if ← word? "AS" then pure [] else do
    let columns ← aliasColumns g
    word "AS"
    pure columns
  let materialized ← do
    if ← word? "MATERIALIZED" then pure (some true)
    else if ← words? ["NOT", "MATERIALIZED"] then pure (some false)
    else pure none
  let q ← queryInParens g
  return .mk ⟨false, name, columns⟩ materialized q (← afterWord "FROM" ident)

/-- An offset after its first word, with its unit. -/
def offsetCount (g : Grammar) : Parser (Expr × String) := do
  let e ← g.anyExpr
  match ← oneOf? ["ROW", "ROWS"] with
  | some unit => return (e, " " ++ unit)
  | none => return (e, "")

/-- The limit and the offset of a query, in either order. -/
def limits (g : Grammar) : Parser (Option Expr × Option (Expr × String)) := do
  let before ← afterWord "OFFSET" (offsetCount g)
  if ← word? "LIMIT" then
    let limit ← limitCount g
    let after ← if before.isNone then afterWord "OFFSET" (offsetCount g) else pure none
    return (limit, before.or after)
  else return (none, before)

/-- A `FETCH` clause after its first word. -/
def fetch : Parser String := do
  let _ ← oneOf? ["FIRST", "NEXT"]
  let count ← match ← oneOf? ["ROW", "ROWS"] with
    | some _ => pure ""
    | none => do
      let v ← value
      let percent ← word? "PERCENT"
      let _ ← oneOf? ["ROW", "ROWS"]
      pure (" " ++ v.print ++ (if percent then " PERCENT" else ""))
  let ties ← if ← word? "ONLY" then pure false else words? ["WITH", "TIES"]
  return "FETCH FIRST" ++ count ++ " ROWS " ++ (if ties then "WITH TIES" else "ONLY")

/-- A text in parentheses and quotes, with the word before it. -/
def quotedOption (lead : String) : Parser String := do
  return lead ++ "('" ++ (← parens stringText) ++ "')"

/-- The options after a comma of a `FOR XML` or `FOR JSON` clause, shown in the order of the table.
An option that is not known is passed over. -/
def forOptions (known : List (String × Parser String)) : Parser String := do
  let found ← repeatFrom ([] : List (String × String)) fun acc => do
    if ← symbol? "," then
      match ← oneOf? (known.map (·.1)) with
      | some k =>
        match known.lookup k with
        | some p => return .inl ((k, ← p) :: acc)
        | none => return .inl acc
      | none => return .inl acc
    else return .inr acc
  return String.join (known.map fun (k, _) => clause ", " (found.lookup k))

/-- The clause that turns the rows into XML. -/
def forXml : Parser String := do
  let shape ← match ← oneOf? ["RAW", "AUTO", "EXPLICIT", "PATH"] with
    | some k =>
      if (k == "RAW" || k == "PATH") && (← nextIs "(") then quotedOption k else pure k
    | none => failWith "Expected FOR XML [RAW | AUTO | EXPLICIT | PATH ]"
  let options ← forOptions
    [("BINARY", do word "BASE64"; return "BINARY BASE64"), ("TYPE", pure "TYPE"),
      ("ROOT", quotedOption "ROOT"), ("ELEMENTS", pure "ELEMENTS")]
  return "FOR XML " ++ shape ++ options

/-- The clause that turns the rows into JSON. -/
def forJson : Parser String := do
  let shape ← match ← oneOf? ["AUTO", "PATH"] with
    | some k => pure k
    | none => failWith "Expected FOR JSON [AUTO | PATH ]"
  let options ← forOptions
    [("ROOT", quotedOption "ROOT"), ("INCLUDE_NULL_VALUES", pure "INCLUDE_NULL_VALUES"),
      ("WITHOUT_ARRAY_WRAPPER", pure "WITHOUT_ARRAY_WRAPPER")]
  return "FOR JSON " ++ shape ++ options

/-- A row-locking clause after `FOR`. -/
def lock : Parser Lock := do
  let strength ← oneOf ["UPDATE", "SHARE"]
  let of ← afterWord "OF" objectName
  let waiting ← do
    if ← word? "NOWAIT" then pure (some Waiting.noWait)
    else if ← words? ["SKIP", "LOCKED"] then pure (some Waiting.skipLocked)
    else pure none
  return ⟨strength == "SHARE", of, waiting⟩

/-- The clauses after `FOR`: locks, and last a clause that turns the rows into another shape. -/
def forClauses : Parser (List Lock × Option String) :=
  repeatFrom ([] : List Lock) fun acc => do
    if ← word? "FOR" then
      match ← oneOf? ["XML", "JSON", "BROWSE"] with
      | some "XML" => return .inr (acc.reverse, some (← forXml))
      | some "JSON" => return .inr (acc.reverse, some (← forJson))
      | some _ => return .inr (acc.reverse, some "FOR BROWSE")
      | none => return .inl ((← lock) :: acc)
    else return .inr (acc.reverse, none)

/-- A statement in the place of a query's body, as text. -/
def mutationBody? (g : Grammar) : Parser (Option String) := do
  match ← oneOf? ["INSERT", "UPDATE", "DELETE", "MERGE"] with
  | some "INSERT" =>
    match ← insert g with
    | .inl i => return some i.print
    | .inr text => return some text
  | some "UPDATE" => return some (← update g).print
  | some "DELETE" => return some (← delete g).print
  | some _ => return some (← merge g)
  | none => return none

/-- A query. -/
def query (g : Grammar) : Parser Query := do
  let (isRecursive, ctes) ← if ← word? "WITH" then do
      let isRecursive ← word? "RECURSIVE"
      pure (isRecursive, ← commaSeparated (cte g))
    else pure (false, [])
  match ← mutationBody? g with
  | some text => return .mk isRecursive ctes (.other text) [] none none "" none [] none
  | none =>
    let body ← body g
    let order ← orderBy g
    let (limit, offset) ← limits g
    let fetch ← afterWord "FETCH" fetch
    let (locks, forClause) ← forClauses
    return .mk isRecursive ctes body order limit (offset.map (·.1)) ((offset.map (·.2)).getD "") fetch
      locks forClause

end SqlLayout.Sql.Parser
