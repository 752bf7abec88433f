import SqlLayout.Sql.Parser.ColumnOption

/-!
Types. A built-in type is recognised by its first word and kept as its text; every other name is a
type of the user's own, with an optional list of modifiers.
-/

namespace SqlLayout.Sql.Parser

/-- A size between parentheses, as text with its parentheses. -/
def precision : Parser String := do
  if ← symbol? "(" then
    let n ← natural
    symbol ")"
    return "(" ++ toString n ++ ")"
  else return ""

/-- A size and a scale between parentheses, as text with its parentheses. -/
def precisionAndScale : Parser String := do
  if ← symbol? "(" then
    let n ← natural
    let scale ← if ← symbol? "," then do pure ("," ++ toString (← integer)) else pure ""
    symbol ")"
    return "(" ++ toString n ++ scale ++ ")"
  else return ""

/-- The length of a character type, as text with its parentheses. -/
def characterLength : Parser String := do
  if ← symbol? "(" then
    let text ← if ← word? "MAX" then pure "MAX" else do
      let n ← natural
      match ← oneOf? ["CHARACTERS", "OCTETS"] with
      | some unit => pure (toString n ++ " " ++ unit)
      | none => pure (toString n)
    symbol ")"
    return "(" ++ text ++ ")"
  else return ""

/-- The length of a binary type, as text with its parentheses. -/
def binaryLength : Parser String := do
  if ← symbol? "(" then
    let text ← if ← word? "MAX" then pure "MAX" else pure (toString (← natural))
    symbol ")"
    return "(" ++ text ++ ")"
  else return ""

/-- The word `UNSIGNED` after a number type, with the blank before it. -/
def unsigned : Parser String := do
  if ← word? "UNSIGNED" then return " UNSIGNED" else return ""

/-- The time zone words after a time type, with the blank before them. -/
def timeZone : Parser String := do
  match ← oneOf? ["WITH", "WITHOUT"] with
  | some k =>
    words ["TIME", "ZONE"]
    return " " ++ k ++ " TIME ZONE"
  | none => return ""

/-- The fields of an interval type, with the blank before them. -/
def intervalFields : Parser String := do
  match ← oneOf? ["YEAR", "DAY", "HOUR", "MINUTE", "MONTH", "SECOND"] with
  | none => return ""
  | some k =>
    let last : List String := match k with
      | "YEAR" => ["MONTH"]
      | "DAY" => ["HOUR", "MINUTE", "SECOND"]
      | "HOUR" => ["MINUTE", "SECOND"]
      | "MINUTE" => ["SECOND"]
      | _ => []
    if last.isEmpty then return " " ++ k
    else if ← word? "TO" then
      match last with
      | [only] =>
        word only
        return " " ++ k ++ " TO " ++ only
      | _ => return " " ++ k ++ " TO " ++ (← oneOf last)
    else return " " ++ k

/-- The modifiers of a user's own type: words, numbers and strings with optional commas. -/
def typeModifiers : Parser (List String) := do
  if ← symbol? "(" then
    repeatFrom [] fun acc => do
      let t ← next
      match t.token with
      | .word _ | .delimited _ => return .inl (t.token.text :: acc)
      | .number d _ => return .inl (d :: acc)
      | .quoted .plain s => return .inl (s :: acc)
      | .symbol "," => return .inl acc
      | .symbol ")" => return .inr acc.reverse
      | _ => expectedBut "type modifiers" t
  else return []

/-- One label of an enumeration type. -/
def enumLabel : Parser String := do
  let name := quotedText .plain (← stringText)
  if ← symbol? "=" then return name ++ " = " ++ (← signedNumber) else return name

/-- The labels of a set type, after the opening parenthesis, with the closing one. -/
def setLabels : Parser (List String) :=
  repeatFrom ([] : List String) fun acc => do
    let t ← next
    match t.token with
    | .quoted .plain s =>
      let acc := quotedText .plain s :: acc
      let t ← next
      if t.token == .symbol "," then return .inl acc
      else if t.token == .symbol ")" then return .inr acc.reverse
      else expectedBut ", or \x7d" t
    | _ => expectedBut "a string" t

/-- The types that are one word, with the spelling of each. -/
def plainTypes : List (String × String) :=
  [("BOOLEAN", "BOOLEAN"), ("BOOL", "BOOL"), ("FLOAT4", "FLOAT4"), ("FLOAT32", "Float32"),
    ("FLOAT64", "FLOAT64"), ("FLOAT8", "FLOAT8"), ("INT16", "Int16"), ("INT32", "Int32"),
    ("INT64", "INT64"), ("INT128", "Int128"), ("INT256", "Int256"), ("UINT8", "UInt8"),
    ("UINT16", "UInt16"), ("UINT32", "UInt32"), ("UINT64", "UInt64"), ("UINT128", "UInt128"),
    ("UINT256", "UInt256"), ("HUGEINT", "HUGEINT"), ("UBIGINT", "UBIGINT"),
    ("UHUGEINT", "UHUGEINT"), ("USMALLINT", "USMALLINT"), ("UTINYINT", "UTINYINT"),
    ("UUID", "UUID"), ("DATE", "DATE"), ("DATE32", "Date32"), ("JSON", "JSON"),
    ("JSONB", "JSONB"), ("REGCLASS", "REGCLASS"), ("TEXT", "TEXT"), ("TINYTEXT", "TINYTEXT"),
    ("MEDIUMTEXT", "MEDIUMTEXT"), ("LONGTEXT", "LONGTEXT"), ("TINYBLOB", "TINYBLOB"),
    ("MEDIUMBLOB", "MEDIUMBLOB"), ("LONGBLOB", "LONGBLOB"), ("BYTEA", "BYTEA"),
    ("TSVECTOR", "TSVECTOR"), ("TSQUERY", "TSQUERY"), ("TRIGGER", "TRIGGER")]

/-- The whole-number types, which take a size and a sign. -/
def integerTypes : List String :=
  ["TINYINT", "INT2", "SMALLINT", "MEDIUMINT", "INT", "INT4", "INT8", "INTEGER", "BIGINT"]

/-- The types that take one size. -/
def sizedTypes : List String :=
  ["CLOB", "BINARY", "BLOB", "BYTES", "VARBIT", "DATETIME", "STRING", "TIMESTAMP_NTZ"]

/-- The number types that take a size and a scale. -/
def scaledTypes : List String :=
  ["NUMERIC", "BIGNUMERIC", "BIGDECIMAL"]

/-- The rest of a built-in type after its first word; `none` when the word starts none. -/
def builtinAfter (key : String) : Option (Parser String) :=
  match plainTypes.lookup key with
  | some text => some (pure text)
  | none =>
    if integerTypes.contains key then
      some do return key ++ (← precision) ++ (← unsigned)
    else if sizedTypes.contains key then some do return key ++ (← precision)
    else if scaledTypes.contains key then some do return key ++ (← precisionAndScale)
    else match key with
      | "DECIMAL" | "DEC" | "FLOAT" =>
        some do return key ++ (← precisionAndScale) ++ (← unsigned)
      | "REAL" => some do return "REAL" ++ (← unsigned)
      | "DOUBLE" => some do
        if ← word? "PRECISION" then return "DOUBLE PRECISION" ++ (← unsigned)
        else return "DOUBLE" ++ (← precisionAndScale) ++ (← unsigned)
      | "VARCHAR" | "NVARCHAR" => some do return key ++ (← characterLength)
      | "CHARACTER" | "CHAR" => some do
        if ← word? "VARYING" then return key ++ " VARYING" ++ (← characterLength)
        else if ← words? ["LARGE", "OBJECT"] then return key ++ " LARGE OBJECT" ++ (← precision)
        else return key ++ (← characterLength)
      | "VARBINARY" => some do return "VARBINARY" ++ (← binaryLength)
      | "BIT" => some do
        if ← word? "VARYING" then return "BIT VARYING" ++ (← precision)
        else return "BIT" ++ (← precision)
      | "TIMESTAMP" | "TIME" => some do
        let p ← precision
        return key ++ p ++ (← timeZone)
      | "TIMESTAMPTZ" | "TIMETZ" => some do return key ++ (← precision)
      | "INTERVAL" => some do
        let fields ← intervalFields
        return "INTERVAL" ++ fields ++ (← precision)
      | "ENUM" | "ENUM8" | "ENUM16" => some do
        let labels ← parens (commaSeparated enumLabel)
        return key ++ "(" ++ Text.commas labels ++ ")"
      | "SET" => some do
        symbol "("
        return "SET(" ++ Text.commas (← setLabels) ++ ")"
      | "DATETIME64" => some do
        symbol "("
        let n ← natural
        let zone ← if ← symbol? "," then do pure (", '" ++ (← stringText) ++ "'") else pure ""
        symbol ")"
        return "DateTime64(" ++ toString n ++ zone ++ ")"
      | "FIXEDSTRING" => some do
        let n ← parens natural
        return "FixedString(" ++ toString n ++ ")"
      | "SIGNED" | "UNSIGNED" => some do
        if ← word? "INTEGER" then return key ++ " INTEGER" else return key
      | _ => none

/-- Array brackets after a type. -/
def arrayBrackets (start : DataType) : Parser DataType :=
  repeatFrom start fun t => do
    if ← symbol? "[" then
      let size ← attempt natural
      symbol "]"
      return .inl (.array t size)
    else return .inr t

/-- A type that takes no closing angle bracket too many. -/
def unmatchedOr (p : Parser (DataType × Bool)) : Parser DataType := do
  let (type, extra) ← p
  if extra then failWith ("unmatched > after parsing data type " ++ type.print ++ (← peek).token.text)
  else return type

/-- A type, and whether a second closing angle bracket was taken with it; `fuel` bounds the nesting
of types. -/
def dataTypeFrom (g : Grammar) : Nat → Parser (DataType × Bool)
  | 0 => expected "a data type name"
  | fuel + 1 => do
    let t ← peek
    match t.token with
    | .word _ | .delimited _ =>
      let (type, extra) ←
        match builtinAfter t.key with
        | some p => do
          let _ ← next
          pure (DataType.builtin (← p), false)
        | none =>
          match t.key with
          | "ARRAY" => do
            let _ ← next
            symbol "<"
            let (inner, extra) ← dataTypeFrom g fuel
            let closed := DataType.builtin ("ARRAY<" ++ inner.print ++ ">")
            if extra then pure (closed, false)
            else if ← symbol? ">" then pure (closed, false)
            else if ← symbol? ">>" then pure (closed, true)
            else expected ">"
          | "TABLE" => do
            let _ ← next
            if ← nextIs "(" then
              let columns ← parens (commaSeparated do
                let name ← ident
                let type ← unmatchedOr (dataTypeFrom g fuel)
                return Text.joinWith " " (name.print :: type.print :: (← columnOptions g)))
              pure (DataType.builtin ("TABLE(" ++ Text.commas columns ++ ")"), false)
            else pure (DataType.builtin "TABLE", false)
          | "ANY" => do
            if (← peekAt 1).key == "TYPE" then
              let _ ← next
              let _ ← next
              pure (DataType.builtin "ANY TYPE", false)
            else
              let name ← objectName
              pure (DataType.custom name (← typeModifiers), false)
          | _ => do
            let name ← objectName
            pure (DataType.custom name (← typeModifiers), false)
      return (← arrayBrackets type, extra)
    | _ =>
      let _ ← next
      expectedBut "a data type name" t

/-- A type. -/
def dataType (g : Grammar) : Parser DataType := do
  unmatchedOr (dataTypeFrom g ((← remaining) + 1))

/-- The definition of a column, as text. -/
def columnDef (g : Grammar) : Parser String := do
  let name ← ident
  let type ← dataType g
  return Text.joinWith " " (name.print :: type.print :: (← columnOptions g))

/-- Columns after a table's alias: names with optional types. -/
def aliasColumns (g : Grammar) : Parser (List String) := do
  if ← symbol? "(" then
    let columns ← commaSeparated do
      let name ← ident
      match ← attempt (dataType g) with
      | some type => return name.print ++ " " ++ type.print
      | none => return name.print
    symbol ")"
    return columns
  else return []

/-- The alias of a table phrase, if it has one. -/
def tableAlias (g : Grammar) : Parser (Option TableAlias) := do
  let explicit ← nextIsWord "AS"
  match ← alias? reservedForTable with
  | some name => return some ⟨explicit, name, ← aliasColumns g⟩
  | none => return none

/-- The fields of a time value that are known by name. -/
def timeFields : List String :=
  ["YEAR", "YEARS", "MONTH", "MONTHS", "WEEK", "WEEKS", "DAY", "DAYS", "DAYOFWEEK", "DAYOFYEAR",
    "DATE", "DATETIME", "HOUR", "HOURS", "MINUTE", "MINUTES", "SECOND", "SECONDS", "CENTURY",
    "DECADE", "DOY", "DOW", "EPOCH", "ISODOW", "ISOYEAR", "ISOWEEK", "JULIAN", "MICROSECOND",
    "MICROSECONDS", "MILLENIUM", "MILLENNIUM", "MILLISECOND", "MILLISECONDS", "NANOSECOND",
    "NANOSECONDS", "QUARTER", "TIME", "TIMEZONE", "TIMEZONE_ABBR", "TIMEZONE_HOUR",
    "TIMEZONE_MINUTE", "TIMEZONE_REGION"]

/-- The units that may follow the number of an interval. -/
def intervalUnits : List String :=
  ["YEAR", "YEARS", "MONTH", "MONTHS", "WEEK", "WEEKS", "DAY", "DAYS", "HOUR", "HOURS", "MINUTE",
    "MINUTES", "SECOND", "SECONDS", "CENTURY", "DECADE", "DOW", "DOY", "EPOCH", "ISODOW",
    "ISOYEAR", "JULIAN", "MICROSECOND", "MICROSECONDS", "MILLENIUM", "MILLENNIUM", "MILLISECOND",
    "MILLISECONDS", "NANOSECOND", "NANOSECONDS", "QUARTER", "TIMEZONE", "TIMEZONE_HOUR",
    "TIMEZONE_MINUTE"]

/-- A field of a time value; a name that is not known is kept as written. -/
def timeField : Parser String := do
  let t ← peek
  match t.token with
  | .word _ | .delimited _ =>
    if timeFields.contains t.key then
      let _ ← next
      return t.key
    else return (← ident).print
  | .quoted .plain _ => return (← ident).print
  | _ =>
    let _ ← next
    expectedBut "date/time field" t

end SqlLayout.Sql.Parser
