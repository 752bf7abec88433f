import SqlLayout.Sql.Parser.Alteration
import SqlLayout.Sql.Parser.Privilege
import SqlLayout.Sql.Parser.Session
import SqlLayout.Sql.Parser.Transfer

/-!
Statements. Queries and changes of rows have a layout; all other statements have none, and of each only
the leading words are kept.
-/

namespace SqlLayout.Sql.Parser

open Text (commas)

/-! ### Plans -/

/-- The format in which a plan is shown, as text. -/
def planFormat : Parser String := do
  let assigned ← symbol? "="
  let t ← next
  if ["TEXT", "GRAPHVIZ", "JSON", "TRADITIONAL", "TREE"].contains t.key then
    return "FORMAT" ++ (if assigned then "=" else " ") ++ t.key ++ " "
  else expectedBut "fileformat" t

/-- The options of a plan, with the blank after them. -/
def planOptions (g : Grammar) (lead : String) : Parser String := do
  if lead == "EXPLAIN" && (← nextIs "(") then
    let options ← parens (commaSeparated do
      let name ← ident
      if (← nextIs ",") || (← nextIs ")") then return name.print
      else return name.print ++ " " ++ (← g.anyExpr).print)
    return "(" ++ commas options ++ ") "
  else if ← words? ["QUERY", "PLAN"] then return "QUERY PLAN "
  else if ← word? "ESTIMATE" then return "ESTIMATE "
  else
    let analyze ← word? "ANALYZE"
    let verbose ← word? "VERBOSE"
    let format ← afterWord "FORMAT" planFormat
    return (if analyze then "ANALYZE " else "") ++ (if verbose then "VERBOSE " else "") ++
      format.getD ""

/-- The word with which a statement starts. -/
def leadWord : Statement → String
  | .query q => Text.firstWord q.print
  | .insert _ => "INSERT"
  | .update _ => "UPDATE"
  | .delete _ => "DELETE"
  | .command label => Text.firstWord label

/-- The words that ask for the plan of a statement. -/
def planWords : List String :=
  ["DESC", "DESCRIBE", "EXPLAIN"]

/-- The plan of a statement, or the shape of a table, after the first word. -/
def explain (g : Grammar) (lead : String) : Parser String := do
  let options ← planOptions g lead
  match ← attempt g.statement with
  | some s =>
    if planWords.contains (leadWord s) then failWith "Explain must be root of the plan"
    else return lead ++ " " ++ options ++ leadWord s
  | none =>
    let format ← oneOf? ["EXTENDED", "FORMATTED"]
    return lead ++ " " ++ clause "" (format.map (· ++ " ")) ++ (← objectName).print

/-! ### Upkeep of tables -/

/-- The emptying of tables, after the word `TRUNCATE`. -/
def truncate (g : Grammar) : Parser String := do
  let keyword ← word? "TABLE"
  let only ← word? "ONLY"
  let names ← objectNames
  discard (afterWord "PARTITION" (exprsInParens g))
  discard (oneOfRuns? [["RESTART", "IDENTITY"], ["CONTINUE", "IDENTITY"]])
  dependents
  onCluster
  return "TRUNCATE " ++ (if keyword then "TABLE " else "") ++ (if only then "ONLY " else "") ++
    commas (names.map ObjectName.print)

/-- One clause on what is analyzed. -/
def analyzeClause (g : Grammar) : Parser (Option Unit) := do
  match ← oneOf? ["PARTITION", "FOR", "CACHE", "NOSCAN", "COMPUTE"] with
  | some "PARTITION" => some <$> exprsInParens g
  | some "FOR" =>
    word "COLUMNS"
    discard (attempt idents)
    return some ()
  | some "CACHE" => some <$> word "METADATA"
  | some "COMPUTE" => some <$> word "STATISTICS"
  | some _ => return some ()
  | none => return none

/-- The gathering of statistics, after the word `ANALYZE`. -/
def analyze (g : Grammar) : Parser String := do
  let keyword ← word? "TABLE"
  let name ← objectName
  discard (many (analyzeClause g))
  return "ANALYZE " ++ (if keyword then "TABLE " else "") ++ name.print

/-- The removal of dead rows, after the word `VACUUM`. -/
def vacuum : Parser String := do
  let full ← word? "FULL"
  let sortOnly ← words? ["SORT", "ONLY"]
  let deleteOnly ← words? ["DELETE", "ONLY"]
  let reindex ← word? "REINDEX"
  let recluster ← word? "RECLUSTER"
  let name ← attempt objectName
  if name.isSome then
    if ← word? "TO" then
      discard value
      word "PERCENT"
    discard (word? "BOOST")
  return "VACUUM" ++ (if full then " FULL" else "") ++ (if sortOnly then " SORT ONLY" else "") ++
    (if deleteOnly then " DELETE ONLY" else "") ++ (if reindex then " REINDEX" else "") ++
    (if recluster then " RECLUSTER" else "") ++ clause " " (name.map ObjectName.print)

/-- The check of a table's partitions, after the word `MSCK`. -/
def checkPartitions : Parser String := do
  let repair ← word? "REPAIR"
  word "TABLE"
  discard objectName
  discard (attempt do
    discard (oneOf? ["ADD", "DROP", "SYNC"])
    word "PARTITIONS")
  return "MSCK " ++ (if repair then "REPAIR " else "") ++ "TABLE"

/-- The query of a cached table, if the text goes on. -/
def cachedQuery (g : Grammar) : Parser Unit := do
  if (← peek).token == .eof then return
  if ← nextIsWord "OPTIONS" then discard (settingsAfter g "OPTIONS")
  let t ← peek
  match t.token with
  | .eof => return
  | .word _ | .delimited _ =>
    discard (word? "AS")
    discard g.query
  | _ => expected "a QUERY statement"

/-- The caching of a table, after the word `CACHE`. The fault of a text that ends too early is at its
last token. -/
def cacheTable (g : Grammar) : Parser String := do
  if ← word? "TABLE" then
    discard objectName
    cachedQuery g
    return "CACHE TABLE"
  let start ← get
  let flag ← objectName
  unless ← word? "TABLE" do
    let t ← if (← peek).token == .eof then lastSince start else peek
    expectedBut "a \x60TABLE\x60 keyword" t
  discard objectName
  cachedQuery g
  return "CACHE " ++ flag.print

/-- New names for tables, after the word `RENAME`. -/
def renameTables : Parser String := do
  unless ← word? "TABLE" do expected "KEYWORD \x60TABLE\x60 after RENAME"
  discard (commaSeparated do
    discard objectName
    word "TO"
    objectName)
  return "RENAME TABLE"

/-! ### Comments and values -/

/-- The kinds of things that a comment may stand on. -/
def commentable : List String :=
  ["COLUMN", "DATABASE", "DOMAIN", "EXTENSION", "FUNCTION", "INDEX", "MATERIALIZED", "PROCEDURE", "ROLE",
    "SCHEMA", "SEQUENCE", "TABLE", "TYPE", "USER", "VIEW"]

/-- A comment on a thing, after the word `COMMENT`. -/
def commentOn : Parser String := do
  let harmless ← ifExists
  word "ON"
  let t ← next
  unless commentable.contains t.key do expectedBut "comment object_type" t
  if t.key == "MATERIALIZED" then word "VIEW"
  discard objectName
  word "IS"
  unless ← word? "NULL" do discard stringText
  return "COMMENT " ++ (if harmless then "IF EXISTS" else "ON")

/-- The value of a pragma: a text, a number or a parameter. -/
def pragmaValue : Parser String := do
  let start ← get
  let t ← peek
  let v ← value
  match t.token with
  | .quoted .plain _ | .delimited _ | .number _ _ | .placeholder _ | .symbol _ => return v.print
  | _ =>
    set start
    expected "number or string or ? placeholder"

/-- A pragma, after its first word. -/
def pragma : Parser String := do
  let text := "PRAGMA " ++ (← objectName).print
  if ← symbol? "(" then
    let v ← pragmaValue
    symbol ")"
    return text ++ "(" ++ v ++ ")"
  else if ← symbol? "=" then return text ++ " = " ++ (← pragmaValue)
  else return text

/-- An export of a query's rows, after the word `EXPORT`. -/
def exportData (g : Grammar) : Parser String := do
  word "DATA"
  discard (afterWords ["WITH", "CONNECTION"] objectName)
  word "OPTIONS"
  discard (parens (commaSeparated (setting g)))
  word "AS"
  discard g.query
  return "EXPORT DATA"

/-- The attachment of a database, after the word `ATTACH`. -/
def attach (g : Grammar) : Parser String := do
  let keyword ← word? "DATABASE"
  let file ← g.anyExpr
  word "AS"
  discard ident
  return "ATTACH " ++ (if keyword then "DATABASE " else "") ++ file.print

/-! ### Prepared statements and calls -/

/-- A prepared statement, after the word `PREPARE`. -/
def prepare (g : Grammar) : Parser String := do
  let text ← withName "PREPARE"
  if ← nextIs "(" then discard (parens (commaSeparated (dataType g)))
  word "AS"
  discard g.statement
  return text

/-- Whether the arguments of a prepared statement without parentheses end before they start. -/
def noArguments : Parser Bool := do
  match (← peek).token with
  | .eof | .symbol ";" => return true
  | _ => nextIsOneOf ["USING", "OUTPUT", "DEFAULT"]

/-- The running of a prepared statement, after the first word. -/
def execution (g : Grammar) : Parser String := do
  let name ← objectName
  let text ← do
    if ← symbol? "(" then
      let args ← commaSeparatedUntil ")" g.anyExpr
      symbol ")"
      pure ("(" ++ commas (args.map Expr.print) ++ ")")
    else if ← noArguments then pure ""
    else pure (" " ++ commas ((← g.exprs).map Expr.print))
  discard (afterWord "INTO" idents)
  discard (afterWord "USING" (commaSeparated (namedExpr g)))
  discard (word? "OUTPUT")
  discard (word? "DEFAULT")
  return "EXECUTE " ++ name.print ++ text

/-- A call of a procedure, after the word `CALL`. -/
def procedureCall (g : Grammar) : Parser String := do
  let name ← objectName
  if ← nextIs "(" then
    return "CALL " ++ (← call g (operand g ((← remaining) + 1)) false name).print
  else return "CALL " ++ name.print

/-! ### Other commands -/

/-- The end of a connection or a query, after the word `KILL`. -/
def kill : Parser String := do
  let unit ← oneOf? ["CONNECTION", "QUERY", "MUTATION"]
  let n ← natural
  if unit == some "MUTATION" then
    expected "Unsupported type for KILL, allowed: CONNECTION | QUERY"
  return "KILL " ++ clause "" (unit.map (· ++ " ")) ++ toString n

/-- The channel that is no longer listened to, after the word `UNLISTEN`. -/
def unlisten : Parser String := do
  if ← symbol? "*" then return "UNLISTEN *"
  match ← attempt ident with
  | some name => return "UNLISTEN " ++ name.print
  | none => expected "wildcard or identifier"

/-- A message to a channel, after the word `NOTIFY`. -/
def notify : Parser String := do
  let text ← withName "NOTIFY"
  if ← symbol? "," then return text ++ ", '" ++ (← stringText) ++ "'" else return text

/-- What a session forgets, after the word `DISCARD`. -/
def discardStatement : Parser String := do
  let k ← oneOfAs "ALL, PLANS, SEQUENCES, TEMP or TEMPORARY after DISCARD"
    ["ALL", "PLANS", "SEQUENCES", "TEMP", "TEMPORARY"]
  return "DISCARD " ++ (if k == "TEMPORARY" then "TEMP" else k)

/-- A condition that must hold, after the word `ASSERT`. -/
def assertion (g : Grammar) : Parser String := do
  let e ← g.anyExpr
  discard (afterWord "AS" g.anyExpr)
  return "ASSERT " ++ e.print

/-- A name after a word, where another word may stand between them. -/
def nameAfter (lead filler : String) : Parser String := do
  let filled ← word? filler
  withName (if filled then lead ++ " " ++ filler else lead)

/-- Everything under a word, or one name. -/
def allOr (lead : String) (name : Parser String) : Parser String := do
  if ← word? "ALL" then return lead ++ " ALL" else return lead ++ " " ++ (← name)

/-- The command that a word `t` starts, after the word. -/
def command? (g : Grammar) (t : Lexeme) : Option (Parser String) :=
  match t.key with
  | "DESC" | "DESCRIBE" | "EXPLAIN" => some (explain g t.key)
  | "CREATE" => some (create g)
  | "ALTER" => some (alter g)
  | "DROP" => some (drop g)
  | "TRUNCATE" => some (truncate g)
  | "ANALYZE" => some (analyze g)
  | "VACUUM" => some vacuum
  | "MSCK" => some checkPartitions
  | "CACHE" => some (cacheTable g)
  | "UNCACHE" => some do
    word "TABLE"
    discard ifExists
    discard objectName
    return "UNCACHE TABLE"
  | "RENAME" => some renameTables
  | "BEGIN" => some begin
  | "START" => some startTransaction
  | "COMMIT" => some do return "COMMIT" ++ (← chainWords)
  | "END" => some do return "END" ++ (← chainWords)
  | "ROLLBACK" => some rollback
  | "SAVEPOINT" | "OPEN" | "LISTEN" | "LOAD" => some (withName t.key)
  | "RELEASE" => some do
    discard (word? "SAVEPOINT")
    withName "RELEASE SAVEPOINT"
  | "DECLARE" => some (declareCursor g)
  | "FETCH" => some cursorFetch
  | "CLOSE" => some (allOr "CLOSE" do return (← ident).print)
  | "SET" => some (setStatement g)
  | "RESET" => some (allOr "RESET" do return (← objectName).print)
  | "SHOW" => some (showStatement g)
  | "USE" => some do return "USE " ++ (← objectName).print
  | "GRANT" => some (grant g)
  | "REVOKE" => some (revoke g)
  | "DENY" => some (deny g)
  | "COPY" => some (copy g)
  | "UNLOAD" => some (unload g)
  | "EXPORT" => some (exportData g)
  | "ATTACH" => some (attach g)
  | "CALL" => some (procedureCall g)
  | "PREPARE" => some (prepare g)
  | "EXECUTE" | "EXEC" => some (execution g)
  | "DEALLOCATE" => some (nameAfter "DEALLOCATE" "PREPARE")
  | "UNLISTEN" => some unlisten
  | "NOTIFY" => some notify
  | "DISCARD" => some discardStatement
  | "KILL" => some kill
  | "FLUSH" | "REPLACE" => some (failHere ("Unsupported statement " ++ t.key))
  | "ASSERT" => some (assertion g)
  | "PRAGMA" => some pragma
  | "COMMENT" => some commentOn
  | "CASE" => some (caseStatement g)
  | "IF" => some (ifStatement g t)
  | "WHILE" => some (whileStatement g t)
  | "RAISE" => some (raiseStatement g)
  | "RAISERROR" => some (raiseError g)
  | "PRINT" => some do return "PRINT " ++ (← g.anyExpr).print
  | "RETURN" => some (returnStatement g)
  | "MERGE" => some (merge g)
  | _ => none

/-- The first two words of a text. -/
def firstTwoWords (s : String) : String :=
  let first := Text.firstWord s
  let rest := String.ofList ((s.toList.dropWhile Text.isBlank).drop first.length)
  let second := Text.firstWord rest
  if second.isEmpty then first else first ++ " " ++ second

/-- A statement. -/
def statement (g : Grammar) : Parser Statement := do
  let t ← peek
  if ["SELECT", "WITH", "VALUES", "FROM"].contains t.key || t.token == .symbol "(" then
    return .query (← g.query)
  discard next
  match t.key with
  | "INSERT" =>
    match ← insert g with
    | .inl i => return .insert i
    | .inr text => return .command (firstTwoWords text)
  | "UPDATE" => return .update (← update g)
  | "DELETE" => return .delete (← delete g)
  | _ =>
    match command? g t with
    | some p => return .command (firstTwoWords (← p))
    | none => expectedBut "an SQL statement" t

end SqlLayout.Sql.Parser
