import SqlLayout.Sql.Parser.Routine
import SqlLayout.Sql.Parser.TypeDef

/-!
Definitions: the statements that start with `CREATE`. Each gives the start of its text.
-/

namespace SqlLayout.Sql.Parser

/-- The owner of a thing. The fault that there is none holds the fault of the name. -/
def owner : Parser Unit := do
  match ← outcome ident with
  | .ok _ => return
  | .error stop =>
    failWith ("Expected: CURRENT_USER, CURRENT_ROLE, SESSION_USER or identifier after OWNER TO. " ++
      "sql parser error: " ++ stop.fault.text)

/-! ### Views and indexes -/

/-- How a view is computed and for whom; gives the first word, if there is one. -/
def viewParams : Parser (Option String) := do
  let algorithm ← afterWord "ALGORITHM" do
    symbol "="
    discard (oneOf ["UNDEFINED", "MERGE", "TEMPTABLE"])
  let definer ← afterWord "DEFINER" do
    symbol "="
    discard objectName
  let security ← afterWords ["SQL", "SECURITY"] (discard (oneOf ["DEFINER", "INVOKER"]))
  return if algorithm.isSome then some "ALGORITHM" else if definer.isSome then some "DEFINER"
    else if security.isSome then some "SQL" else none

/-- One column of a view. -/
def viewColumn (g : Grammar) : Parser Unit := do
  discard ident
  discard (many (columnOption? g))

/-- The definition of a view, from the words before `VIEW` on; gives the first of these words. -/
def viewDef (g : Grammar) : Parser (Option String) := do
  let secure ← word? "SECURE"
  let materialized ← word? "MATERIALIZED"
  word "VIEW"
  let first ← ifNotExists
  discard objectName
  unless first do discard ifNotExists
  if ← nextIs "(" then discard (parens (commaSeparatedUntil ")" (viewColumn g)))
  discard (settingsAfter g "WITH")
  if ← word? "CLUSTER" then
    word "BY"
    discard (columnList true)
  word "AS"
  discard g.query
  return if secure then some "SECURE" else if materialized then some "MATERIALIZED" else none

/-- How a change of a table or an index is carried out, after its first word `k`. -/
def alterMethod (k : String) : Parser Unit := do
  discard (symbol? "=")
  if k == "LOCK" then
    discard (oneOfAs "DEFAULT, EXCLUSIVE, NONE or SHARED after LOCK [=]"
      ["DEFAULT", "EXCLUSIVE", "NONE", "SHARED"])
  else
    discard (oneOfAs "DEFAULT, INSTANT, INPLACE, or COPY after ALGORITHM [=]"
      ["DEFAULT", "INSTANT", "INPLACE", "COPY"])

/-- The definition of an index after the word `INDEX`. -/
def indexDef (g : Grammar) : Parser Unit := do
  discard (word? "CONCURRENTLY")
  let named ← if ← ifNotExists then pure true else do pure !(← word? "ON")
  if named then
    discard objectName
    indexMethod
    word "ON"
  discard objectName
  indexMethod
  indexColumns g
  if ← word? "INCLUDE" then discard identList
  nullsDistinct
  if ← word? "WITH" then exprsInParens g
  discard (afterWord "WHERE" g.anyExpr)
  indexOptions
  discard (many do
    match ← oneOf? ["ALGORITHM", "LOCK"] with
    | some k =>
      alterMethod k
      return some ()
    | none => return none)

/-! ### Schemas, sequences and databases -/

/-- The name of a schema, its owner, or both. -/
def schemaName : Parser Unit := do
  if ← word? "AUTHORIZATION" then discard ident
  else
    discard objectName
    discard (afterWord "AUTHORIZATION" ident)

/-- The definition of a schema after the word `SCHEMA`. -/
def schemaDef (g : Grammar) : Parser Unit := do
  discard ifNotExists
  schemaName
  discard (afterWords ["DEFAULT", "COLLATE"] g.anyExpr)
  discard (settingsAfter g "WITH")
  discard (settingsAfter g "OPTIONS")
  discard (afterWord "CLONE" objectName)

/-- The definition of a database after the word `DATABASE`. -/
def databaseDef : Parser Unit := do
  discard ifNotExists
  discard objectName
  discard (many do
    match ← oneOf? ["LOCATION", "MANAGEDLOCATION"] with
    | some _ => return some (← stringText)
    | none => return none)
  discard (afterWord "CLONE" objectName)

/-- The definition of a sequence after the word `SEQUENCE`. -/
def sequenceDef (g : Grammar) : Parser Unit := do
  discard ifNotExists
  discard objectName
  discard (afterWord "AS" (dataType g))
  discard sequenceOptions
  discard (afterWords ["OWNED", "BY"] objectName)

/-! ### Roles, users and policies -/

/-- The pairs of words that give a role a right or deny it. -/
def rolePairs : List (String × String) :=
  [("LOGIN", "NOLOGIN"), ("INHERIT", "NOINHERIT"), ("BYPASSRLS", "NOBYPASSRLS"),
    ("CREATEDB", "NOCREATEDB"), ("CREATEROLE", "NOCREATEROLE"), ("SUPERUSER", "NOSUPERUSER"),
    ("REPLICATION", "NOREPLICATION")]

/-- The words that start an option of a role. -/
def roleWords : List String :=
  rolePairs.flatMap (fun (yes, no) => [yes, no]) ++
    ["PASSWORD", "CONNECTION", "VALID", "IN", "ROLE", "ADMIN", "USER"]

/-- The name of an option of a role, after its first word `k`, and what follows the name. -/
def roleOption (k : String) : Parser (String × Parser Unit) := do
  match rolePairs.find? fun (yes, no) => k == yes || k == no with
  | some (yes, no) => return (yes ++ " or " ++ no, pure ())
  | none =>
    match k with
    | "PASSWORD" => return (k, do unless ← word? "NULL" do discard value)
    | "CONNECTION" =>
      word "LIMIT"
      return ("CONNECTION LIMIT", discard numberText)
    | "VALID" =>
      word "UNTIL"
      return ("VALID UNTIL", discard value)
    | "IN" =>
      let group ← oneOfAs "ROLE or GROUP after IN" ["ROLE", "GROUP"]
      return ("IN " ++ group, discard idents)
    | _ => return (k, discard idents)

/-- The definition of a role after the word `ROLE`. No option may stand twice. -/
def roleDef : Parser Unit := do
  discard ifNotExists
  discard objectNames
  discard (word? "WITH")
  repeatFrom ([] : List String) fun found => do
    let t ← peek
    match ← oneOf? roleWords with
    | none => return .inr ()
    | some k =>
      let (name, rest) ← roleOption k
      if found.contains name then failWith ("Found multiple " ++ name ++ t.placeText)
      rest
      return .inl (name :: found)

/-- The definition of a user after the word `USER`. -/
def userDef : Parser Unit := do
  discard ifNotExists
  discard ident
  bareOptions ["WITH", "TAG"]
  discard (word? "WITH")
  if ← word? "TAG" then optionsInParens

/-- A condition in parentheses after the keywords. -/
def conditionAfter (g : Grammar) (ks : List String) : Parser Unit :=
  discard (afterWords ks (parens g.anyExpr))

/-- The definition of a row policy after the word `POLICY`. -/
def policyDef (g : Grammar) : Parser Unit := do
  discard ident
  word "ON"
  discard objectName
  discard (afterWord "AS" (oneOf ["PERMISSIVE", "RESTRICTIVE"]))
  discard (afterWord "FOR" (oneOf ["ALL", "SELECT", "INSERT", "UPDATE", "DELETE"]))
  discard (afterWord "TO" (commaSeparated owner))
  conditionAfter g ["USING"]
  conditionAfter g ["WITH", "CHECK"]

/-! ### Links to other systems -/

/-- A name and a value, both written as names. -/
def namePair : Parser Unit := do
  discard ident
  discard ident

/-- The definition of an extension after the word `EXTENSION`. -/
def extensionDef : Parser Unit := do
  discard ifNotExists
  discard ident
  if ← word? "WITH" then
    discard (afterWord "SCHEMA" ident)
    discard (afterWord "VERSION" ident)
    discard (word? "CASCADE")

/-- The definition of a virtual table after the word `VIRTUAL`. -/
def virtualTableDef : Parser Unit := do
  word "TABLE"
  discard ifNotExists
  discard objectName
  word "USING"
  discard ident
  discard (columnList true)

/-- The definition of a connector after the word `CONNECTOR`. -/
def connectorDef (g : Grammar) : Parser Unit := do
  discard ifNotExists
  discard ident
  discard (afterWord "TYPE" stringText)
  discard (afterWord "URL" stringText)
  if ← word? "COMMENT" then
    discard (symbol? "=")
    discard commentText
  discard (someSettingsAfter g ["WITH", "DCPROPERTIES"])

/-- The definition of a foreign server after the word `SERVER`. -/
def serverDef : Parser Unit := do
  discard ifNotExists
  discard objectName
  discard (afterWord "TYPE" ident)
  discard (afterWord "VERSION" ident)
  words ["FOREIGN", "DATA", "WRAPPER"]
  discard objectName
  discard (afterWord "OPTIONS" (parens (commaSeparated namePair)))

/-- The definition of a secret after the word `SECRET`. A name that cannot be read is passed over. -/
def secretDef : Parser Unit := do
  discard ifNotExists
  unless ← nextIs "(" do
    let place ← if ← word? "IN" then taking ident else do
      discard (taking ident)
      pure none
    if place.isNone then
      if ← word? "IN" then discard (taking ident)
  symbol "("
  word "TYPE"
  discard ident
  if ← symbol? "," then discard (commaSeparated namePair)
  symbol ")"

/-! ### All definitions -/

/-- The words between `CREATE` and the kind of thing that is defined. -/
structure DefinitionLead where
  replace : Bool
  alter : Bool
  isLocal : Bool
  isGlobal : Bool
  transient : Bool
  temporary : Bool
  viewParam : Option String

/-- The words before the kind of thing, in the order in which they stand. -/
def definitionLead : Parser DefinitionLead := do
  let replace ← words? ["OR", "REPLACE"]
  let alter ← words? ["OR", "ALTER"]
  let isLocal ← word? "LOCAL"
  let isGlobal ← word? "GLOBAL"
  let transient ← word? "TRANSIENT"
  let temporary := (← oneOf? ["TEMP", "TEMPORARY"]).isSome
  return { replace, alter, isLocal, isGlobal, transient, temporary, viewParam := ← viewParams }

/-- The first word of a list of words that may be missing. -/
def firstWordOf (candidates : List (Bool × String)) (otherwise : String) : String :=
  ((candidates.find? (·.1)).map (·.2)).getD otherwise

/-- Whether a view is defined next. -/
def nextIsView : Parser Bool := do
  if ← nextIsOneOf ["MATERIALIZED", "VIEW"] then return true
  else if ← nextAreWords ["SECURE", "MATERIALIZED", "VIEW"] then return true
  else nextAreWords ["SECURE", "VIEW"]

/-- A thing that can be defined in the place of another one: the second word of the statement, or
`none` when no such thing is defined. -/
def replaceableDef? (g : Grammar) (lead : DefinitionLead) : Parser (Option String) := do
  if ← word? "TABLE" then
    tableDef g
    return some (firstWordOf [(lead.replace, "OR"), (lead.isGlobal, "GLOBAL"), (lead.isLocal, "LOCAL"),
      (lead.temporary, "TEMPORARY"), (lead.transient, "TRANSIENT")] "TABLE")
  if ← nextIsView then
    let kind ← viewDef g
    return some (firstWordOf [(lead.alter || lead.replace, "OR"),
      (lead.viewParam.isSome, lead.viewParam.getD ""), (kind.isSome, kind.getD ""),
      (lead.temporary, "TEMPORARY")] "VIEW")
  if ← word? "POLICY" then
    policyDef g
    return some "POLICY"
  if ← word? "EXTERNAL" then
    externalTableDef g
    return some (firstWordOf [(lead.replace, "OR")] "EXTERNAL")
  if ← word? "FUNCTION" then
    functionDef g
    return some (firstWordOf [(lead.replace, "OR"), (lead.temporary, "TEMPORARY")] "FUNCTION")
  if ← word? "DOMAIN" then
    domainDef g
    return some "DOMAIN"
  let constrains ← words? ["CONSTRAINT", "TRIGGER"]
  if ← (if constrains then pure true else word? "TRIGGER") then
    triggerDef g
    return some (firstWordOf [(lead.temporary, "TEMPORARY"), (lead.alter || lead.replace, "OR"),
      (constrains, "CONSTRAINT")] "TRIGGER")
  if ← nextIsWord "MACRO" then expected "an object type after CREATE"
  if ← word? "SECRET" then
    secretDef
    return some (firstWordOf [(lead.replace, "OR"), (lead.temporary, "TEMPORARY")] "SECRET")
  if ← word? "USER" then
    userDef
    return some (firstWordOf [(lead.replace, "OR")] "USER")
  return none

/-- The things that can only be defined anew, with the rest of each definition. -/
def definitions (g : Grammar) : List (String × Parser Unit) :=
  [("EXTENSION", extensionDef), ("INDEX", indexDef g), ("VIRTUAL", virtualTableDef),
    ("SCHEMA", schemaDef g), ("DATABASE", databaseDef), ("ROLE", roleDef),
    ("SEQUENCE", sequenceDef g), ("TYPE", typeDef g), ("PROCEDURE", procedureDef g),
    ("CONNECTOR", connectorDef g), ("SERVER", serverDef),
    ("OPERATOR", do
      if ← word? "FAMILY" then operatorFamilyDef
      else if ← word? "CLASS" then operatorClassDef g
      else operatorDef g)]

/-- A definition after the word `CREATE`. -/
def create (g : Grammar) : Parser String := do
  let lead ← definitionLead
  if let some second ← replaceableDef? g lead then return "CREATE " ++ second
  if lead.replace then
    expected "[EXTERNAL] TABLE or [MATERIALIZED] VIEW or FUNCTION after CREATE OR REPLACE"
  if ← words? ["UNIQUE", "INDEX"] then
    indexDef g
    return "CREATE UNIQUE"
  match (definitions g).lookup (← peek).key with
  | none => expected "an object type after CREATE"
  | some rest =>
    let t ← next
    rest
    return "CREATE " ++ firstWordOf [(t.key == "SEQUENCE" && lead.temporary, "TEMPORARY"),
      (t.key == "PROCEDURE" && lead.alter, "OR")] t.key

end SqlLayout.Sql.Parser
