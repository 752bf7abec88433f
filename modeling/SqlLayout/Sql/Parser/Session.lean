import SqlLayout.Sql.Parser.Option

/-!
Statements about a session: its transactions, cursors and settings, and what it shows of them. Each
gives the start of its text.
-/

namespace SqlLayout.Sql.Parser

/-- The first word of a statement and a name after it. -/
def withName (lead : String) : Parser String := do
  return lead ++ " " ++ (← ident).print

/-! ### Transactions -/

/-- The words for a transaction. -/
def transactionWords : List String :=
  ["TRANSACTION", "WORK", "TRAN"]

/-- The words after the end of a transaction, with the blank before them. -/
def chainWords : Parser String := do
  discard (oneOf? transactionWords)
  if ← word? "AND" then
    let negated ← word? "NO"
    word "CHAIN"
    return if negated then "" else " AND CHAIN"
  else return ""

/-- One mode of a transaction. -/
def transactionMode? : Parser (Option String) := do
  if ← words? ["ISOLATION", "LEVEL"] then
    match ← oneOfRuns? [["READ", "UNCOMMITTED"], ["READ", "COMMITTED"], ["REPEATABLE", "READ"],
        ["SERIALIZABLE"], ["SNAPSHOT"]] with
    | some ks => return some ("ISOLATION LEVEL " ++ Text.joinWith " " ks)
    | none => expected "isolation level"
  else if ← words? ["READ", "ONLY"] then return some "READ ONLY"
  else if ← words? ["READ", "WRITE"] then return some "READ WRITE"
  else return none

/-- The modes of a transaction. -/
def transactionModes : Parser (List String) :=
  repeatFrom (([], false) : List String × Bool) fun (acc, required) => do
    match ← transactionMode? with
    | some m => return .inl (acc ++ [m], ← symbol? ",")
    | none => if required then expected "transaction mode" else return .inr acc

/-- The start of a transaction, after the word `BEGIN`. -/
def begin : Parser String := do
  let unit ← oneOf? transactionWords
  return "BEGIN" ++ clause " " unit ++ listClause " " (← transactionModes)

/-- The start of a transaction, after the word `START`. -/
def startTransaction : Parser String := do
  word "TRANSACTION"
  return "START TRANSACTION" ++ listClause " " (← transactionModes)

/-- The undoing of a transaction, after the word `ROLLBACK`. -/
def rollback : Parser String := do
  let chain ← chainWords
  let savepoint ← afterWord "TO" do
    discard (word? "SAVEPOINT")
    ident
  return "ROLLBACK" ++ chain ++ clause " TO SAVEPOINT " (savepoint.map Ident.print)

/-! ### Cursors -/

/-- The definition of a cursor, after the word `DECLARE`. -/
def declareCursor (g : Grammar) : Parser String := do
  let text ← withName "DECLARE"
  discard (word? "BINARY")
  discard (oneOf? ["INSENSITIVE", "ASENSITIVE"])
  discard (oneOfRuns? [["SCROLL"], ["NO", "SCROLL"]])
  word "CURSOR"
  if (← oneOf? ["WITH", "WITHOUT"]).isSome then word "HOLD"
  word "FOR"
  discard g.query
  return text

/-- The rows that a cursor moves over, as text. -/
def cursorMove : Parser String := do
  match ← oneOf? ["NEXT", "PRIOR", "FIRST", "LAST", "ABSOLUTE", "RELATIVE", "FORWARD", "BACKWARD",
      "ALL"] with
  | some k =>
    if k == "ABSOLUTE" || k == "RELATIVE" then return k ++ " " ++ (← numberText)
    else if k == "FORWARD" || k == "BACKWARD" then
      if ← word? "ALL" then return k ++ " ALL" else return k ++ " " ++ (← numberText)
    else return k
  | none => numberText

/-- A movement of a cursor, after the word `FETCH`. -/
def cursorFetch : Parser String := do
  let move ← cursorMove
  if (← oneOf? ["FROM", "IN"]).isNone then failHere "Expected FROM or IN"
  discard ident
  discard (afterWord "INTO" objectName)
  return "FETCH " ++ move

/-! ### Settings -/

/-- The sign between a setting and its value; tells whether it came next. -/
def assignSign : Parser Bool := do
  if ← symbol? "=" then return true else word? "TO"

/-- The values of a setting. A value that cannot be read is a fault at the token where its reading
ended. -/
def settingValues (g : Grammar) : Parser Unit :=
  discard (commaSeparated do
    if ← nextIsOneOf ["SELECT", "WITH"] then discard g.query
    else if (← taking g.anyExpr).isNone then expected "variable value")

/-- A setting of the time zone, after its name; `isLocal` tells that it holds for a transaction. -/
def timeZoneSetting (g : Grammar) (lead : String) (isLocal : Bool) : Parser String := do
  if ← assignSign then
    settingValues g
    return lead ++ "TIMEZONE"
  else
    discard g.anyExpr
    return "SET " ++ (if isLocal then "LOCAL " else "") ++ "TIME ZONE"

/-- The character set of a client, after the word `NAMES`. -/
def namesSetting : Parser String := do
  if ← word? "DEFAULT" then return "SET NAMES DEFAULT"
  let text ← withName "SET NAMES"
  discard (afterWord "COLLATE" stringText)
  return text

/-- The user of a session, after its keyword `t`. The words before it must name what it holds for. -/
def authorizationSetting (t : Lexeme) (scope : Option String) : Parser String := do
  match scope with
  | none => expectedBut "SESSION, LOCAL, or other scope modifier before AUTHORIZATION" t
  | some s =>
    unless ← word? "DEFAULT" do discard ident
    return "SET " ++ s ++ " AUTHORIZATION"

/-- A setting, after the word `SET`. -/
def setStatement (g : Grammar) : Parser String := do
  let isHive ← word? "HIVEVAR"
  let scope ← if isHive then pure none else oneOf? ["SESSION", "LOCAL", "GLOBAL"]
  if isHive then symbol ":"
  let withScope := "SET " ++ clause "" (scope.map (· ++ " "))
  let lead := withScope ++ (if isHive then "HIVEVAR:" else "")
  let role ← attempt do
    word "ROLE"
    ident
  if let some name := role then return withScope ++ "ROLE " ++ name.print
  if (← oneOfRuns? [["TIME", "ZONE"], ["TIMEZONE"]]).isSome then
    return ← timeZoneSetting g lead (scope == some "LOCAL")
  let t ← peek
  match ← oneOf? ["NAMES", "CHARACTERISTICS", "TRANSACTION", "AUTHORIZATION"] with
  | some "NAMES" => namesSetting
  | some "CHARACTERISTICS" =>
    words ["AS", "TRANSACTION"]
    discard transactionModes
    return "SET SESSION CHARACTERISTICS"
  | some "TRANSACTION" =>
    if ← word? "SNAPSHOT" then discard value else discard transactionModes
    return "SET TRANSACTION"
  | some _ => authorizationSetting t scope
  | none =>
    let name ← objectName
    unless ← assignSign do expected "equals sign or TO"
    settingValues g
    return lead ++ name.print ++ " ="

/-! ### Shows -/

/-- What is shown of a list: the names that match a pattern or fulfil a condition. -/
def showFilter (g : Grammar) : Parser Unit := do
  match ← oneOf? ["LIKE", "ILIKE", "WHERE"] with
  | some "WHERE" => discard g.anyExpr
  | some _ => discard stringText
  | none => discard (attempt stringText)

/-- The place whose contents are shown. -/
def showPlace : Parser Unit := do
  if (← oneOf? ["FROM", "IN"]).isNone then return
  match ← oneOf? ["ACCOUNT", "DATABASE", "SCHEMA", "TABLE", "VIEW"] with
  | some k =>
    if k == "DATABASE" || k == "SCHEMA" then
      if ← nextAreWords ["STARTS", "WITH"] then return
      if ← nextIsWord "LIMIT" then return
    discard (attempt objectName)
  | none =>
    discard objectName
    if (← oneOf? ["FROM", "IN"]).isSome then discard ident

/-- What a list is shown of and how much of it. -/
def showOptions (g : Grammar) : Parser Unit := do
  showPlace
  showFilter g
  discard (afterWords ["STARTS", "WITH"] value)
  discard (afterWord "LIMIT" (limitCount g))
  discard (afterWord "FROM" value)

/-- The words of a setting that is shown; all other tokens but an equals sign and the end of the
statement are passed over. -/
def shownWords : Parser (List String) :=
  repeatFrom ([] : List String) fun acc => do
    let t ← peek
    match t.token with
    | .eof | .symbol "=" | .symbol ";" => return .inr acc.reverse
    | .word s =>
      discard next
      return .inl (s :: acc)
    | .delimited s =>
      discard next
      return .inl (inQuotes '"' s :: acc)
    | _ =>
      discard next
      return .inl acc

/-- The words before the kind of thing that is shown. -/
structure ShowLead where
  terse : Bool
  extended : Bool
  full : Bool
  external : Bool

/-- The words before the kind of thing, in the order in which they stand. -/
def showLead : Parser ShowLead := do
  let terse ← word? "TERSE"
  let extended ← word? "EXTENDED"
  let full ← word? "FULL"
  discard (word? "SESSION")
  discard (word? "GLOBAL")
  return { terse, extended, full, external := ← word? "EXTERNAL" }

/-- A list of things that may be shown in full; gives `none` when none of them is named. -/
def showList? (g : Grammar) (lead : ShowLead) : Parser (Option String) := do
  let word (given : Bool) (k : String) : String := if given then k ++ " " else ""
  if (← oneOf? ["COLUMNS", "FIELDS"]).isSome then
    showOptions g
    return some (word lead.extended "EXTENDED" ++ word lead.full "FULL" ++ "COLUMNS")
  if ← word? "TABLES" then
    unless lead.external do discard (word? "HISTORY")
    showOptions g
    return some (word lead.terse "TERSE" ++ word lead.extended "EXTENDED" ++ word lead.full "FULL" ++
      word lead.external "EXTERNAL" ++ "TABLES")
  match ← oneOfRuns? [["MATERIALIZED", "VIEWS"], ["VIEWS"]] with
  | some ks =>
    showOptions g
    return some (word lead.terse "TERSE" ++ Text.joinWith " " ks)
  | none =>
    if ← word? "FUNCTIONS" then
      showFilter g
      return some "FUNCTIONS"
    else return none

/-- What a session shows, after the word `SHOW`. -/
def showStatement (g : Grammar) : Parser String := do
  let lead ← showLead
  if let some text ← showList? g lead then return "SHOW " ++ text
  if lead.extended || lead.full then
    failWith "EXTENDED/FULL are not supported with this type of SHOW query"
  if ← word? "CREATE" then
    let kind ← oneOf ["TABLE", "TRIGGER", "FUNCTION", "PROCEDURE", "EVENT", "VIEW"]
    discard objectName
    return "SHOW CREATE " ++ kind
  if ← word? "COLLATION" then
    showFilter g
    return "SHOW COLLATION"
  discard (word? "VARIABLES")
  discard (word? "STATUS")
  match ← oneOfRuns? [["DATABASES"], ["SCHEMAS"], ["CHARACTER", "SET"], ["CHARSET"]] with
  | some [k] =>
    if k == "CHARSET" then
      showFilter g
      return "SHOW CHARSET"
    else
      discard (word? "HISTORY")
      showOptions g
      return "SHOW " ++ (if lead.terse then "TERSE " else "") ++ k
  | some _ =>
    showFilter g
    return "SHOW CHARACTER SET"
  | none => return Text.joinWith " " ("SHOW" :: (← shownWords))

end SqlLayout.Sql.Parser
