import SqlLayout.Sql.Parser.Option

/-!
Transfers of rows between tables and files. Each statement gives the start of its text.
-/

namespace SqlLayout.Sql.Parser

/-! ### Options -/

/-- A word for a truth value, or none. -/
def switchWord : Parser Unit :=
  discard (oneOf? ["TRUE", "FALSE", "ON", "OFF"])

/-- An option of a transfer that stands in parentheses. -/
def copyOption : Parser Unit := do
  match ← oneOfAs "option" ["FORMAT", "FREEZE", "DELIMITER", "NULL", "HEADER", "QUOTE", "ESCAPE",
      "FORCE_QUOTE", "FORCE_NOT_NULL", "FORCE_NULL", "ENCODING"] with
  | "FORMAT" => discard ident
  | "FREEZE" | "HEADER" => discard (oneOf? ["TRUE", "FALSE"])
  | "DELIMITER" | "QUOTE" | "ESCAPE" => stringChar
  | "NULL" | "ENCODING" => discard stringText
  | _ => discard (columnList false)

/-- An option for values with commas between them. -/
def csvOption : Parser Unit := do
  match ← oneOfAs "csv option" ["HEADER", "QUOTE", "ESCAPE", "FORCE"] with
  | "HEADER" => return
  | "FORCE" =>
    match ← oneOfRuns? [["NOT", "NULL"], ["QUOTE"]] with
    | some _ => discard idents
    | none => expected "csv option"
  | _ =>
    discard (word? "AS")
    stringChar

/-- A constant between quotes, if one comes next. -/
def quoted? : Parser Unit := do
  match (← peek).token with
  | .quoted .plain _ => discard next
  | _ => return

/-- The role under which files are read and written. -/
def fileRole : Parser Unit := do
  unless ← word? "DEFAULT" do discard stringText

/-- A size of a file. -/
def fileSize : Parser Unit := do
  discard numberText
  discard (oneOf? ["MB", "GB"])

/-- The options that stand without parentheses. -/
def bareCopyWords : List String :=
  ["ACCEPTANYDATE", "ACCEPTINVCHARS", "ADDQUOTES", "ALLOWOVERWRITE", "BINARY", "BLANKSASNULL", "BZIP2",
    "CLEANPATH", "COMPUPDATE", "CSV", "DATEFORMAT", "DELIMITER", "EMPTYASNULL", "ENCRYPTED", "ESCAPE",
    "EXTENSION", "FIXEDWIDTH", "GZIP", "HEADER", "IAM_ROLE", "IGNOREHEADER", "JSON", "MANIFEST",
    "MAXFILESIZE", "NULL", "PARALLEL", "PARQUET", "PARTITION", "REGION", "REMOVEQUOTES",
    "ROWGROUPSIZE", "STATUPDATE", "TIMEFORMAT", "TRUNCATECOLUMNS", "ZSTD"]

/-- An option of a transfer that stands without parentheses. -/
def bareCopyOption : Parser Unit := do
  if ← word? "FORMAT" then discard (word? "AS")
  let k ← oneOfAs "option" bareCopyWords
  if ["ACCEPTINVCHARS", "DATEFORMAT", "DELIMITER", "IGNOREHEADER", "JSON", "MAXFILESIZE", "NULL", "REGION",
      "ROWGROUPSIZE", "TIMEFORMAT"].contains k then discard (word? "AS")
  match k with
  | "ACCEPTINVCHARS" | "DATEFORMAT" | "JSON" | "TIMEFORMAT" => quoted?
  | "COMPUPDATE" =>
    discard (word? "PRESET")
    switchWord
  | "CSV" => discard (many (attempt csvOption))
  | "DELIMITER" => stringChar
  | "ENCRYPTED" => discard (word? "AUTO")
  | "EXTENSION" | "FIXEDWIDTH" | "NULL" | "REGION" => discard stringText
  | "IAM_ROLE" => fileRole
  | "IGNOREHEADER" => discard natural
  | "MANIFEST" => discard (word? "VERBOSE")
  | "MAXFILESIZE" | "ROWGROUPSIZE" => fileSize
  | "PARALLEL" | "STATUPDATE" => switchWord
  | "PARTITION" =>
    word "BY"
    discard (columnList false)
    discard (word? "INCLUDE")
  | _ => return

/-- The options that stand without parentheses. -/
def bareCopyOptions : Parser Unit :=
  discard (many (attempt bareCopyOption))

/-! ### Statements -/

/-- The rows that come with a statement, up to a backslash and a point. The token after any other
backslash is passed over with it. -/
def inlineRows : Parser Unit :=
  repeatFrom () fun _ => do
    let t ← next
    if t.token == .eof then return .inr ()
    if t.token == .symbol "\\" then
      if ← symbol? "." then return .inr ()
      discard next
    return .inl ()

/-- What is transferred, as text, and whether it is a query. -/
def copySource (g : Grammar) : Parser (String × Bool) := do
  if ← symbol? "(" then
    let q ← g.query
    symbol ")"
    return ("(" ++ q.print ++ ")", true)
  else
    let name ← objectName
    discard (columnList true)
    return (name.print, false)

/-- A transfer between a table and a file, after the word `COPY`. -/
def copy (g : Grammar) : Parser String := do
  let (source, isQuery) ← copySource g
  let direction ← oneOfAs "FROM or TO" ["FROM", "TO"]
  if direction == "FROM" && isQuery then
    failWith "COPY ... FROM does not support query as a source"
  let file ← oneOf? ["STDIN", "STDOUT", "PROGRAM"]
  if file.isNone || file == some "PROGRAM" then discard stringText
  discard (word? "WITH")
  if ← nextIs "(" then discard (parens (commaSeparated copyOption))
  bareCopyOptions
  if file == some "STDIN" then
    symbol ";"
    inlineRows
  return "COPY " ++ source

/-- A transfer of a query's rows to files, after the word `UNLOAD`. -/
def unload (g : Grammar) : Parser String := do
  symbol "("
  let source ← match (← peek).token with
    | .quoted .plain s => do
      discard next
      pure ("'" ++ s ++ "'")
    | _ => do pure (← g.query).print
  symbol ")"
  word "TO"
  discard ident
  discard (afterWord "IAM_ROLE" fileRole)
  discard (settingsAfter g "WITH")
  bareCopyOptions
  return "UNLOAD(" ++ source ++ ")"

end SqlLayout.Sql.Parser
