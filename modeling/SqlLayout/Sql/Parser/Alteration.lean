import SqlLayout.Sql.Parser.Definition

/-!
Changes and removals of definitions: the statements that start with `ALTER` and `DROP`. Each gives the
start of its text.
-/

namespace SqlLayout.Sql.Parser

/-! ### Changes of tables -/

/-- One or more partitions, each a list of expressions in parentheses after its keyword. -/
def partitions (g : Grammar) : Parser (List Unit) :=
  many (afterWord "PARTITION" (exprsInParens g))

/-- An addition to a table: a constraint, partitions or a column. -/
def addToTable (g : Grammar) : Parser Unit := do
  if ← tableConstraint g then
    discard (words? ["NOT", "VALID"])
  else
    discard ifNotExists
    if (← partitions g).isEmpty then
      discard (word? "COLUMN")
      discard ifNotExists
      discard (columnDef g)

/-- A new name for a table or a part of it. -/
def renameInTable : Parser Unit := do
  let between : Parser Unit := do
    discard ident
    word "TO"
    discard ident
  if ← word? "CONSTRAINT" then between
  else if (← oneOf? ["TO", "AS"]).isSome then discard objectName
  else
    discard (word? "COLUMN")
    between

/-- What is switched off in a table. -/
def disableInTable : Parser Unit := do
  match ← oneOfRuns? [["ROW", "LEVEL", "SECURITY"], ["RULE"], ["TRIGGER"]] with
  | some ["ROW", "LEVEL", "SECURITY"] => return
  | some _ => discard ident
  | none => expected "ROW LEVEL SECURITY, RULE, or TRIGGER after DISABLE"

/-- What is switched on in a table. -/
def enableInTable : Parser Unit := do
  match ← oneOfRuns? [["ALWAYS", "RULE"], ["ALWAYS", "TRIGGER"], ["ROW", "LEVEL", "SECURITY"],
      ["REPLICA", "RULE"], ["REPLICA", "TRIGGER"], ["RULE"], ["TRIGGER"]] with
  | some ["ROW", "LEVEL", "SECURITY"] => return
  | some _ => discard ident
  | none => expected "ALWAYS, REPLICA, ROW LEVEL SECURITY, RULE, or TRIGGER after ENABLE"

/-- A removal from a table: a partition, a constraint, a key, an index or a column. -/
def dropFromTable (g : Grammar) : Parser Unit := do
  match ← oneOfRuns? [["IF", "EXISTS", "PARTITION"], ["PARTITION"], ["CONSTRAINT"], ["PRIMARY", "KEY"],
      ["FOREIGN", "KEY"], ["INDEX"]] with
  | some ["IF", "EXISTS", "PARTITION"] | some ["PARTITION"] => exprsInParens g
  | some ["CONSTRAINT"] =>
    discard ifExists
    discard ident
    dependents
  | some ["PRIMARY", "KEY"] => dependents
  | some ["INDEX"] => discard ident
  | some _ =>
    discard ident
    dependents
  | none =>
    discard (word? "PROJECTION")
    if ← words? ["CLUSTERING", "KEY"] then return
    discard (word? "COLUMN")
    discard ifExists
    discard ident
    dependents

/-- A new type and new options for a column. -/
def newColumnType (g : Grammar) : Parser Unit := do
  discard (dataType g)
  discard (many (columnOption? g))

/-- A new type for a column, with the expression that converts its values. -/
def convertedType (g : Grammar) : Parser Unit := do
  discard (dataType g)
  discard (afterWord "USING" g.anyExpr)

/-- A change of one column. -/
def alterColumn (g : Grammar) : Parser Unit := do
  discard (word? "COLUMN")
  discard ident
  match ← oneOfRuns? [["SET", "NOT", "NULL"], ["DROP", "NOT", "NULL"], ["SET", "DEFAULT"],
      ["DROP", "DEFAULT"], ["SET", "DATA", "TYPE"], ["TYPE"], ["ADD", "GENERATED"]] with
  | some ["SET", "DEFAULT"] => discard g.anyExpr
  | some ["SET", "DATA", "TYPE"] | some ["TYPE"] => convertedType g
  | some ["ADD", "GENERATED"] =>
    discard (oneOfRuns? [["ALWAYS"], ["BY", "DEFAULT"]])
    words ["AS", "IDENTITY"]
    discard sequenceInParens
  | some _ => return
  | none => expected ("SET/DROP NOT NULL, SET DEFAULT, SET DATA TYPE, or ADD GENERATED after " ++
      "ALTER COLUMN")

/-- How the rows of a table are told apart when they are sent elsewhere. -/
def replicaIdentity : Parser Unit := do
  match ← oneOfRuns? [["NONE"], ["FULL"], ["DEFAULT"], ["USING", "INDEX"]] with
  | some ["USING", "INDEX"] => discard ident
  | some _ => return
  | none => expected "NONE, FULL, DEFAULT, or USING INDEX index_name after REPLICA IDENTITY"

/-- New settings of a table. -/
def setInTable (g : Grammar) : Parser Unit := do
  if ← someSettingsAfter g ["SET", "TBLPROPERTIES"] then return
  unless ← settingsAfter g "SET" do
    expected ("ADD, RENAME, PARTITION, SWAP, DROP, REPLICA IDENTITY, SET, or SET TBLPROPERTIES " ++
      "after ALTER TABLE")

/-- A change of a table that starts with other words than the first few. -/
def otherTableChange (g : Grammar) : Parser Unit := do
  match ← oneOfRuns? [["DROP"], ["PARTITION"], ["CHANGE"], ["MODIFY"], ["ALTER"], ["SWAP"],
      ["OWNER", "TO"], ["CLUSTER", "BY"], ["SUSPEND", "RECLUSTER"], ["RESUME", "RECLUSTER"], ["LOCK"],
      ["ALGORITHM"], ["AUTO_INCREMENT"], ["REPLICA", "IDENTITY"], ["VALIDATE", "CONSTRAINT"]] with
  | some ["DROP"] => dropFromTable g
  | some ["PARTITION"] =>
    exprsInParens g
    words ["RENAME", "TO", "PARTITION"]
    exprsInParens g
  | some ["CHANGE"] =>
    discard (word? "COLUMN")
    discard ident
    discard ident
    newColumnType g
  | some ["MODIFY"] =>
    discard (word? "COLUMN")
    discard ident
    newColumnType g
  | some ["ALTER"] => alterColumn g
  | some ["SWAP"] =>
    word "WITH"
    discard objectName
  | some ["OWNER", "TO"] => owner
  | some ["CLUSTER", "BY"] => exprsInParens g
  | some ["LOCK"] => alterMethod "LOCK"
  | some ["ALGORITHM"] => alterMethod "ALGORITHM"
  | some ["AUTO_INCREMENT"] =>
    discard (symbol? "=")
    discard numberText
  | some ["REPLICA", "IDENTITY"] => replicaIdentity
  | some ["VALIDATE", "CONSTRAINT"] => discard ident
  | some _ => return
  | none => setInTable g

/-- A change of a table. Two pairs of words that mean nothing here are passed over. -/
def tableChange (g : Grammar) : Parser Unit := do
  match ← oneOf? ["ADD", "RENAME", "DISABLE", "ENABLE"] with
  | some "ADD" => addToTable g
  | some "RENAME" => renameInTable
  | some "DISABLE" => disableInTable
  | some _ => enableInTable
  | none =>
    discard (words? ["CLEAR", "PROJECTION"])
    discard (words? ["MATERIALIZE", "PROJECTION"])
    otherTableChange g

/-- Changes of a table after the word `TABLE`. -/
def alterTable (g : Grammar) : Parser Unit := do
  discard ifExists
  discard (word? "ONLY")
  discard objectName
  onCluster
  discard (commaSeparated (tableChange g))
  if (← oneOfRuns? [["LOCATION"], ["SET", "LOCATION"]]).isSome then discard ident

/-! ### Changes of other things -/

/-- A new query for a view. -/
def alterView (g : Grammar) : Parser Unit := do
  discard objectName
  discard (columnList true)
  discard (settingsAfter g "WITH")
  word "AS"
  discard g.query

/-- A change of a type. -/
def alterType : Parser Unit := do
  discard objectName
  match ← oneOfRuns? [["RENAME", "TO"], ["ADD", "VALUE"], ["RENAME", "VALUE"]] with
  | some ["RENAME", "TO"] => discard ident
  | some ["ADD", "VALUE"] =>
    discard ifNotExists
    discard ident
    if (← oneOf? ["BEFORE", "AFTER"]).isSome then discard ident
  | some _ =>
    discard ident
    word "TO"
    discard ident
  | none => expected "\x7bRENAME TO | \x7b RENAME | ADD \x7d VALUE\x7d"

/-- A change of an index. -/
def alterIndex : Parser Unit := do
  discard objectName
  unless ← word? "RENAME" do expected "RENAME after ALTER INDEX"
  unless ← word? "TO" do expected "TO after RENAME"
  discard objectName

/-- A change of a schema. -/
def alterSchema (g : Grammar) : Parser Unit := do
  discard ifExists
  discard objectName
  if ← nextAreWords ["SET", "OPTIONS"] then
    word "SET"
    discard (settingsAfter g "OPTIONS")
  else match ← oneOfRuns? [["SET", "DEFAULT", "COLLATE"], ["ADD", "REPLICA"], ["DROP", "REPLICA"],
      ["RENAME", "TO"], ["OWNER", "TO"]] with
    | some ["SET", "DEFAULT", "COLLATE"] => discard g.anyExpr
    | some ["ADD", "REPLICA"] =>
      discard ident
      discard (settingsAfter g "OPTIONS")
    | some ["DROP", "REPLICA"] => discard ident
    | some ["RENAME", "TO"] => discard objectName
    | some _ => owner
    | none => expected "ALTER SCHEMA operation"

/-- An option of a role that is changed. -/
def alteredRoleOption : Parser Unit := do
  let flags := rolePairs.flatMap fun (yes, no) => [yes, no]
  match ← oneOf? (flags ++ ["CONNECTION", "PASSWORD", "VALID"]) with
  | some "CONNECTION" =>
    word "LIMIT"
    discard numberText
  | some "PASSWORD" => unless ← word? "NULL" do discard value
  | some "VALID" =>
    word "UNTIL"
    discard value
  | some _ => return
  | none => expected "option"

/-- A new value for a setting of a role. -/
def setForRole (g : Grammar) : Parser Unit := do
  discard objectName
  if ← words? ["FROM", "CURRENT"] then return
  let assigned ← if ← symbol? "=" then pure true else word? "TO"
  unless assigned do expected "'TO' or '=' or 'FROM CURRENT'"
  unless ← word? "DEFAULT" do
    if (← taking g.anyExpr).isNone then expected "config value"

/-- A change of a role. -/
def alterRole (g : Grammar) : Parser Unit := do
  discard ident
  if ← words? ["IN", "DATABASE"] then discard (taking objectName)
  if ← word? "RENAME" then
    unless ← word? "TO" do expected "TO after RENAME"
    discard ident
  else if ← word? "SET" then setForRole g
  else if ← word? "RESET" then
    unless ← word? "ALL" do discard objectName
  else
    discard (word? "WITH")
    if (← many (attempt alteredRoleOption)).isEmpty then expected "option"

/-- A change of a row policy. -/
def alterPolicy (g : Grammar) : Parser Unit := do
  discard ident
  word "ON"
  discard objectName
  if ← word? "RENAME" then
    word "TO"
    discard ident
  else
    discard (afterWord "TO" (commaSeparated owner))
    conditionAfter g ["USING"]
    conditionAfter g ["WITH", "CHECK"]

/-- A change of a connector. -/
def alterConnector (g : Grammar) : Parser Unit := do
  discard ident
  word "SET"
  discard (someSettingsAfter g ["DCPROPERTIES"])
  discard (afterWord "URL" stringText)
  if ← word? "OWNER" then
    discard (oneOf ["USER", "ROLE"])
    discard ident

/-- A second factor of a login. -/
def loginFactor : Parser Unit :=
  discard (oneOfAs "PASSKEY, TOTP or DUO" ["PASSKEY", "TOTP", "DUO"])

/-- Who may log in for a user. -/
def userDelegation : Parser Unit := do
  if ← words? ["ADD", "DELEGATED", "AUTHORIZATION", "OF", "ROLE"] then
    discard ident
    words ["TO", "SECURITY", "INTEGRATION"]
    discard ident
  if ← words? ["REMOVE", "DELEGATED"] then
    if ← words? ["AUTHORIZATION", "OF", "ROLE"] then discard ident
    else unless ← word? "AUTHORIZATIONS" do
      expected "REMOVE DELEGATED AUTHORIZATION OF ROLE | REMOVE DELEGATED AUTHORIZATIONS"
    words ["FROM", "SECURITY", "INTEGRATION"]
    discard ident

/-- The second factors of a user's login. -/
def userFactors : Parser Unit := do
  discard (words? ["ENROLL", "MFA"])
  discard (afterWords ["SET", "DEFAULT_MFA_METHOD"] loginFactor)
  discard (afterWords ["REMOVE", "MFA", "METHOD"] loginFactor)
  if ← words? ["MODIFY", "MFA", "METHOD"] then
    loginFactor
    words ["SET", "COMMENT"]
    discard stringText
  if ← words? ["ADD", "MFA", "METHOD", "OTP"] then
    if ← word? "COUNT" then
      symbol "="
      discard value

/-- The policies, tags and properties of a user. -/
def userProperties : Parser Unit := do
  let policies (k : String) : List (List String) :=
    ["AUTHENTICATION", "PASSWORD", "SESSION"].map fun p => [k, p, "POLICY"]
  if (← oneOfRuns? (policies "SET")).isSome then discard ident
  discard (oneOfRuns? (policies "UNSET"))
  if ← words? ["SET", "TAG"] then bareOptions []
  discard (afterWords ["UNSET", "TAG"] idents)
  if ← word? "SET" then bareOptions []
  discard (afterWord "UNSET" idents)

/-- A change of a user. -/
def alterUser : Parser Unit := do
  discard ifExists
  discard ident
  discard (afterWords ["RENAME", "TO"] ident)
  discard (words? ["RESET", "PASSWORD"])
  discard (words? ["ABORT", "ALL", "QUERIES"])
  userDelegation
  userFactors
  userProperties

/-- One new property of an operator. -/
def operatorProperty : Parser Unit := do
  match ← oneOf ["RESTRICT", "JOIN", "COMMUTATOR", "NEGATOR", "HASHES", "MERGES"] with
  | "RESTRICT" | "JOIN" =>
    symbol "="
    discard objectName
  | "COMMUTATOR" | "NEGATOR" =>
    symbol "="
    operatorSign
  | _ => return

/-- A change of an operator. -/
def alterOperator (g : Grammar) : Parser Unit := do
  operatorSign
  operandTypes g
  match ← oneOfRuns? [["OWNER", "TO"], ["SET", "SCHEMA"], ["SET"]] with
  | some ["OWNER", "TO"] => discard ident
  | some ["SET", "SCHEMA"] => discard objectName
  | some _ => discard (parens (commaSeparated operatorProperty))
  | none => expected "OWNER TO, SET SCHEMA, or SET after ALTER OPERATOR"

/-- A change of a definition after the word `ALTER`. -/
def alter (g : Grammar) : Parser String := do
  let kind ← oneOf ["VIEW", "TYPE", "TABLE", "INDEX", "ROLE", "POLICY", "CONNECTOR", "ICEBERG",
    "SCHEMA", "USER", "OPERATOR"]
  match kind with
  | "VIEW" => alterView g
  | "TYPE" => alterType
  | "INDEX" => alterIndex
  | "ROLE" => alterRole g
  | "POLICY" => alterPolicy g
  | "CONNECTOR" => alterConnector g
  | "SCHEMA" => alterSchema g
  | "USER" => alterUser
  | "OPERATOR" => alterOperator g
  | "ICEBERG" =>
    word "TABLE"
    alterTable g
  | _ => alterTable g
  return "ALTER " ++ kind

/-! ### Removals -/

/-- The kinds of things that are removed by their names alone. -/
def droppable : List (List String) :=
  [["TABLE"], ["VIEW"], ["MATERIALIZED", "VIEW"], ["INDEX"], ["ROLE"], ["SCHEMA"], ["DATABASE"],
    ["SEQUENCE"], ["STAGE"], ["TYPE"], ["USER"], ["STREAM"]]

/-- A removal of things by their names. -/
def dropNamed (isRole : Bool) : Parser Unit := do
  discard ifExists
  discard objectNames
  let t ← peek
  let cascade ← word? "CASCADE"
  let restrict ← word? "RESTRICT"
  let purge ← word? "PURGE"
  if cascade && restrict then
    failWith ("Cannot specify both CASCADE and RESTRICT in DROP" ++ t.placeText)
  if isRole && (cascade || restrict || purge) then
    failWith ("Cannot specify CASCADE, RESTRICT, or PURGE in DROP ROLE" ++ t.placeText)
  discard (afterWord "ON" objectName)

/-- A removal of an operator, an operator family or an operator class. -/
def dropOperator (g : Grammar) : Parser Unit := do
  if (← oneOf? ["FAMILY", "CLASS"]).isSome then
    discard ifExists
    discard objectNames
    word "USING"
    discard ident
  else
    discard ifExists
    discard (commaSeparated do
      operatorSign
      operandTypes g)
  dependents

/-- The kinds of things whose removal has a form of its own, with the rest of each removal. -/
def removals (g : Grammar) : List (String × Parser Unit) :=
  let routine : Parser Unit := do
    discard ifExists
    discard (commaSeparated (functionDesc g))
    dependents
  [("FUNCTION", routine), ("PROCEDURE", routine),
    ("POLICY", do
      discard ifExists
      discard ident
      word "ON"
      discard objectName
      dependents),
    ("CONNECTOR", do
      discard ifExists
      discard ident),
    ("DOMAIN", do
      discard ifExists
      discard objectName
      dependents),
    ("SECRET", do
      discard ifExists
      discard ident
      if ← word? "FROM" then discard (taking ident)),
    ("TRIGGER", do
      discard ifExists
      discard objectName
      discard (afterWord "ON" objectName)
      dependents),
    ("EXTENSION", do
      discard ifExists
      discard idents
      dependents),
    ("OPERATOR", dropOperator g)]

/-- A removal after the word `DROP`. -/
def drop (g : Grammar) : Parser String := do
  match ← oneOfRuns? droppable with
  | some ks =>
    dropNamed (ks == ["ROLE"])
    return "DROP " ++ Text.joinWith " " ks
  | none =>
    match (removals g).lookup (← peek).key with
    | some rest =>
      let t ← next
      rest
      return "DROP " ++ t.key
    | none => expected ("CONNECTOR, DATABASE, EXTENSION, FUNCTION, INDEX, OPERATOR, POLICY, " ++
        "PROCEDURE, ROLE, SCHEMA, SECRET, SEQUENCE, STAGE, TABLE, TRIGGER, TYPE, VIEW, " ++
        "MATERIALIZED VIEW or USER after DROP")

end SqlLayout.Sql.Parser
