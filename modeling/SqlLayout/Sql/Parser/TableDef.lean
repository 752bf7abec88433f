import SqlLayout.Sql.Parser.Option
import SqlLayout.Text.Letter

/-!
Definitions of tables: their columns and constraints, where and how their rows are stored, and the
options after them.
-/

namespace SqlLayout.Sql.Parser

/-! ### Indexes -/

/-- One column of an index: an expression, an operator class and a direction. -/
def indexColumn (g : Grammar) : Parser Unit := do
  discard g.anyExpr
  unless ← nextIsOneOf ["ASC", "DESC", "NULLS", "WITH"] do
    discard (attempt objectName)
  discard sortOptions

/-- The columns of an index in parentheses. -/
def indexColumns (g : Grammar) : Parser Unit :=
  discard (listInParens false (indexColumn g))

/-- The access method of an index, if it is given. -/
def indexMethod : Parser Unit :=
  discard (afterWord "USING" ident)

/-- The options after an index. -/
def indexOptions : Parser Unit :=
  discard (many do
    if ← word? "USING" then
      discard ident
      return some ()
    else afterWord "COMMENT" (discard stringText))

/-- Whether two nulls count as equal. -/
def nullsDistinct : Parser Unit := do
  if ← word? "NULLS" then
    discard (word? "NOT")
    word "DISTINCT"

/-! ### Constraints -/

/-- The columns of a key, from its optional name to its checking. -/
def keyColumns (g : Grammar) : Parser Unit := do
  discard (attempt ident)
  indexMethod
  indexColumns g
  indexOptions
  discard checking

/-- Whether a constraint is enforced. -/
def enforcement : Parser Unit :=
  discard (oneOfRuns? [["ENFORCED"], ["NOT", "ENFORCED"]])

/-- A constraint of a table; tells whether there was one. One that has a name must be of a known
kind. -/
def tableConstraint (g : Grammar) : Parser Bool := do
  let name ← afterWord "CONSTRAINT" ident
  let t ← peek
  match ← oneOf? ["UNIQUE", "PRIMARY", "FOREIGN", "CHECK"] with
  | some "UNIQUE" =>
    if (← oneOf? ["KEY", "INDEX"]).isSome then
      expected "\x60index_name\x60 or \x60(column_name [, ...])\x60"
    nullsDistinct
    keyColumns g
    return true
  | some "PRIMARY" =>
    word "KEY"
    keyColumns g
    return true
  | some "FOREIGN" =>
    word "KEY"
    discard (attempt ident)
    discard (columnList false)
    word "REFERENCES"
    discard reference
    return true
  | some _ =>
    discard (parens g.anyExpr)
    enforcement
    return true
  | none => if name.isSome then expectedBut "PRIMARY, UNIQUE, FOREIGN, or CHECK" t else return false

/-- The columns and constraints of a table in parentheses, if they are given. -/
def columnsAndConstraints (g : Grammar) : Parser Unit := do
  unless ← symbol? "(" do return
  if ← symbol? ")" then return
  repeatFrom () fun _ => do
    unless ← tableConstraint g do
      match (← peek).token with
      | .word _ | .delimited _ => discard (columnDef g)
      | _ => expected "column name or constraint definition"
    let comma ← symbol? ","
    if comma then return .inl ()
    else if ← symbol? ")" then return .inr ()
    else expected "',' or ')' after column definition"

/-! ### Storage -/

/-- The columns by which a table is split, in parentheses; their types may be left out. -/
def partitionedBy (g : Grammar) : Parser Unit := do
  if ← words? ["PARTITIONED", "BY"] then
    discard (parens (commaSeparated do
      discard ident
      discard (attempt (dataType g))
      columnOptions g))

/-- One delimiter of a row's text. A word that starts none is passed over and ends them. -/
def rowDelimiter : Parser (Option Unit) := do
  match ← oneOf? ["FIELDS", "COLLECTION", "MAP", "LINES", "NULL"] with
  | some "FIELDS" =>
    if ← words? ["TERMINATED", "BY"] then
      discard ident
      discard (afterWords ["ESCAPED", "BY"] ident)
      return some ()
    else return none
  | some "COLLECTION" => afterWords ["ITEMS", "TERMINATED", "BY"] (discard ident)
  | some "MAP" => afterWords ["KEYS", "TERMINATED", "BY"] (discard ident)
  | some "LINES" => afterWords ["TERMINATED", "BY"] (discard ident)
  | some _ => afterWords ["DEFINED", "AS"] (discard ident)
  | none => return none

/-- One clause on how rows are stored. -/
def storageClause (g : Grammar) : Parser (Option Unit) := do
  if ← nextIsWord "WITH" then
    return if ← someSettingsAfter g ["WITH", "SERDEPROPERTIES"] then some () else none
  match ← oneOf? ["ROW", "STORED", "LOCATION"] with
  | some "ROW" =>
    word "FORMAT"
    match ← oneOf? ["SERDE", "DELIMITED"] with
    | some "SERDE" => discard stringText
    | _ => discard (many rowDelimiter)
    return some ()
  | some "STORED" =>
    word "AS"
    if ← word? "INPUTFORMAT" then
      discard g.anyExpr
      word "OUTPUTFORMAT"
      discard g.anyExpr
    else discard fileFormat
    return some ()
  | some _ =>
    discard stringText
    return some ()
  | none => return none

/-- How rows are stored. -/
def storage (g : Grammar) : Parser Unit :=
  discard (many (storageClause g))

/-! ### Options -/

/-- The options that are a key and a value. -/
def plainKeys : List (List String) :=
  [["DEFAULT", "CHARSET"], ["CHARSET"], ["DEFAULT", "CHARACTER", "SET"], ["CHARACTER", "SET"],
    ["DEFAULT", "COLLATE"], ["COLLATE"], ["DATA", "DIRECTORY"], ["INDEX", "DIRECTORY"],
    ["KEY_BLOCK_SIZE"], ["ROW_FORMAT"], ["PACK_KEYS"], ["STATS_AUTO_RECALC"], ["STATS_PERSISTENT"],
    ["STATS_SAMPLE_PAGES"], ["DELAY_KEY_WRITE"], ["COMPRESSION"], ["ENCRYPTION"], ["MAX_ROWS"],
    ["MIN_ROWS"], ["AUTOEXTEND_SIZE"], ["AVG_ROW_LENGTH"], ["CHECKSUM"], ["CONNECTION"],
    ["ENGINE_ATTRIBUTE"], ["PASSWORD"], ["SECONDARY_ENGINE_ATTRIBUTE"], ["INSERT_METHOD"],
    ["AUTO_INCREMENT"]]

/-- The text of a table's comment. A fault here names no place. -/
def tableComment : Parser Unit := do
  let t ← next
  match t.token with
  | .quoted .plain _ => return
  | token => failWith ("Expected: Token::SingleQuotedString, found: " ++ token.text)

/-- The engine of a table. -/
def tableEngine : Parser Unit := do
  let t ← next
  match t.token with
  | .word _ | .delimited _ =>
    if ← nextIs "(" then discard (parens (commaSeparatedUntil ")" ident))
  | _ => expectedBut "Token::Word" t

/-- The place where a table is stored. -/
def tablespace : Parser Unit := do
  let t ← next
  match t.token with
  | .word _ | .delimited _ | .quoted .plain _ =>
    if ← word? "STORAGE" then
      discard (symbol? "=")
      let t ← next
      match t.token with
      | .word s | .delimited s =>
        unless ["DISK", "MEMORY"].contains (Text.upper s) do
          expectedBut "Storage type (DISK or MEMORY)" t
      | _ => expectedBut "Token::Word" t
  | _ => expectedBut "Token::Word" t

/-- One option of a table that stands without parentheses. -/
def plainOption : Parser (Option Unit) := do
  if ← words? ["START", "TRANSACTION"] then return some ()
  match ← oneOf? ["COMMENT", "ENGINE", "TABLESPACE", "UNION"] with
  | some k =>
    discard (symbol? "=")
    match k with
    | "COMMENT" => tableComment
    | "ENGINE" => tableEngine
    | "TABLESPACE" => tablespace
    | _ =>
      let t ← next
      unless t.token == .symbol "(" do expectedBut "Token::LParen" t
      discard (commaSeparatedUntil ")" ident)
      symbol ")"
    return some ()
  | none =>
    match ← oneOfRuns? plainKeys with
    | some _ =>
      discard (symbol? "=")
      unless (← attempt value).isSome do discard ident
      return some ()
    | none => return none

/-- The options of a table that stand without parentheses, with optional commas between them. -/
def plainOptions : Parser Unit :=
  discard (many do
    let found ← plainOption
    if found.isSome then discard (symbol? ",")
    return found)

/-- What happens to the rows of a temporary table when a transaction ends. -/
def onCommit : Parser Unit := do
  if ← words? ["ON", "COMMIT"] then
    match ← oneOfRuns? [["DELETE", "ROWS"], ["PRESERVE", "ROWS"], ["DROP"]] with
    | some _ => return
    | none =>
      failWith ("Expecting DELETE ROWS, PRESERVE ROWS or DROP" ++ (← peek).token.text)

/-- The order of a table's rows. -/
def tableOrder (g : Grammar) : Parser Unit := do
  if ← words? ["ORDER", "BY"] then
    if ← symbol? "(" then
      discard (commaSeparatedUntil ")" g.anyExpr)
      symbol ")"
    else discard g.anyExpr

/-! ### Definitions -/

/-- The definition of a table after the word `TABLE`. -/
def tableDef (g : Grammar) : Parser Unit := do
  discard ifNotExists
  discard objectName
  onCluster
  if (← oneOf? ["LIKE", "ILIKE"]).isSome then discard objectName
  if ← word? "CLONE" then discard (taking objectName)
  columnsAndConstraints g
  discard (words? ["WITHOUT", "ROWID"])
  partitionedBy g
  storage g
  if ← word? "INHERITS" then discard (listInParens false objectName)
  let settings ← settingsAfter g "WITH"
  let properties ← settingsAfter g "TBLPROPERTIES"
  discard (afterWords ["PARTITION", "BY"] g.anyExpr)
  unless settings || properties do plainOptions
  tableOrder g
  onCommit
  discard (word? "STRICT")
  discard (afterWord "AS" g.query)

/-- The definition of a table whose rows are stored elsewhere, from the word `TABLE` on. -/
def externalTableDef (g : Grammar) : Parser Unit := do
  word "TABLE"
  discard ifNotExists
  discard objectName
  columnsAndConstraints g
  partitionedBy g
  storage g
  unless ← settingsAfter g "TBLPROPERTIES" do
    discard (settingsAfter g "OPTIONS")

end SqlLayout.Sql.Parser
