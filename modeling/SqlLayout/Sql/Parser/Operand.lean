import SqlLayout.Sql.Parser.Call

/-!
Operands: what an expression starts with, before any operator between two operands. Words that open a
phrase of their own are tried as that phrase first; when it cannot be read, the word is a name or the
name of a function.
-/

namespace SqlLayout.Sql.Parser

open Text (commas)

/-- The rest of an interval; `operand` reads its number. -/
def interval (operand : Parser Expr) : Parser Expr := do
  let e ← operand
  return .phrase ("INTERVAL " ++ e.print ++ (← intervalQualifier))

/-- A constant after the name of its type. A name of the user's own is not taken for a type here. -/
def typedConstant (g : Grammar) (operand : Parser Expr) : Parser Expr := do
  match ← dataType g with
  | .custom _ _ => expected "a type"
  | .builtin text =>
    if "INTERVAL".isPrefixOf text then interval operand
    else return .phrase (text ++ " " ++ (← value).print)
  | type => return .phrase (type.print ++ " " ++ (← value).print)

/-- A `CASE` after its first word. -/
def caseExpr (g : Grammar) : Parser Expr := do
  let operand ← if ← word? "WHEN" then pure none else do
    let e ← g.anyExpr
    word "WHEN"
    pure (some e)
  let whens ← manyWith (word? "WHEN") do
    let condition ← g.anyExpr
    word "THEN"
    return When.mk condition (← g.anyExpr)
  let otherwise ← afterWord "ELSE" g.anyExpr
  word "END"
  return .caseOf operand whens otherwise

/-- A change of character set or type. -/
def convertExpr (g : Grammar) : Parser Expr := parens do
  let e ← g.anyExpr
  if ← word? "USING" then
    return .phrase ("CONVERT(" ++ e.print ++ " USING " ++ (← objectName).print ++ ")")
  symbol ","
  let type ← dataType g
  let charset ← afterWords ["CHARACTER", "SET"] objectName
  return .phrase ("CONVERT(" ++ e.print ++ ", " ++ type.print ++
    clause " CHARACTER SET " (charset.map ObjectName.print) ++ ")")

/-- A cast that starts with the given word. -/
def castExpr (g : Grammar) (lead : String) : Parser Expr := parens do
  let e ← g.anyExpr
  word "AS"
  let type ← dataType g
  let format ← if ← word? "FORMAT" then do
      let v ← value
      let zone ← afterWords ["AT", "TIME", "ZONE"] value
      pure (some (v.print ++ clause " AT TIME ZONE " (zone.map Value.print)))
    else pure none
  if lead == "CAST" && format.isNone then return .cast false e type
  else return .phrase (lead ++ "(" ++ e.print ++ " AS " ++ type.print ++ clause " FORMAT " format ++ ")")

/-- A field of a time. -/
def extractExpr (g : Grammar) : Parser Expr := parens do
  let field ← timeField
  unless ← word? "FROM" do failWith "Expected 'FROM' or ','"
  return .phrase ("EXTRACT(" ++ field ++ " FROM " ++ (← g.anyExpr).print ++ ")")

/-- A rounding to a time field or to a number of places. -/
def roundingExpr (g : Grammar) (lead : String) : Parser Expr := parens do
  let e ← g.anyExpr
  let rest ← do
    if ← word? "TO" then pure (" TO " ++ (← timeField))
    else if ← symbol? "," then
      match ← value with
      | .number d long => pure (", " ++ (Value.number d long).print)
      | _ => failWith "Scale field can only be of number type"
    else pure ""
  return .phrase (lead ++ "(" ++ e.print ++ rest ++ ")")

/-- The place of one text in another. -/
def positionExpr (g : Grammar) : Parser Expr := parens do
  let e ← g.expr Strength.pattern
  word "IN"
  return .phrase ("POSITION(" ++ e.print ++ " IN " ++ (← g.anyExpr).print ++ ")")

/-- A part of a text. -/
def substringExpr (g : Grammar) (lead : String) : Parser Expr := parens do
  let e ← g.anyExpr
  let special ← symbol? ","
  let start ← if special then do pure (some (← g.anyExpr)) else afterWord "FROM" g.anyExpr
  let count ← do
    if ← word? "FOR" then pure (some (← g.anyExpr))
    else if ← symbol? "," then pure (some (← g.anyExpr))
    else pure none
  return .phrase (lead ++ "(" ++ e.print ++
    clause (if special then ", " else " FROM ") (start.map Expr.print) ++
    clause (if special then ", " else " FOR ") (count.map Expr.print) ++ ")")

/-- A text with a part replaced. -/
def overlayExpr (g : Grammar) : Parser Expr := parens do
  let e ← g.anyExpr
  word "PLACING"
  let what ← g.anyExpr
  word "FROM"
  let start ← g.anyExpr
  let count ← afterWord "FOR" g.anyExpr
  return .phrase ("OVERLAY(" ++ e.print ++ " PLACING " ++ what.print ++ " FROM " ++ start.print ++
    clause " FOR " (count.map Expr.print) ++ ")")

/-- A text without certain characters at its ends. -/
def trimExpr (g : Grammar) : Parser Expr := parens do
  let side ← oneOf? ["BOTH", "LEADING", "TRAILING"]
  let lead := "TRIM(" ++ clause "" (side.map (· ++ " "))
  let e ← g.anyExpr
  if ← word? "FROM" then
    return .phrase (lead ++ e.print ++ " FROM " ++ (← g.anyExpr).print ++ ")")
  else
    let _ ← symbol? ","
    return .phrase (lead ++ e.print ++ ")")

/-- The words for points in time and for names of the session that are calls without parentheses. -/
def sessionWords : List String :=
  ["CURRENT_CATALOG", "CURRENT_USER", "SESSION_USER", "USER"]

/-- The words for points in time, which are calls with or without arguments. -/
def timeWords : List String :=
  ["CURRENT_TIMESTAMP", "CURRENT_TIME", "CURRENT_DATE", "LOCALTIME", "LOCALTIMESTAMP"]

/-- The phrase that a word opens, after the word. -/
def phraseOf (g : Grammar) (operand : Parser Expr) (name : Ident) (key : String) :
    Option (Parser Expr) :=
  if sessionWords.contains key then some (return .bareCall [name])
  else if timeWords.contains key then some do
    if ← symbol? "(" then
      let list ← argList g
      return .call [name] false list.duplicates list.args list.before list.orderBy list.clauses [] none
        none .none
    else return .bareCall [name]
  else match key with
    | "TRUE" => some (return .value (.boolean true))
    | "FALSE" => some (return .value (.boolean false))
    | "NULL" => some (return .value .null)
    | "CASE" => some (caseExpr g)
    | "CONVERT" => some (convertExpr g)
    | "CAST" | "TRY_CAST" | "SAFE_CAST" => some (castExpr g key)
    | "EXISTS" => some do return .existsIn false (← queryInParens g)
    | "EXTRACT" => some (extractExpr g)
    | "CEIL" | "FLOOR" => some (roundingExpr g key)
    | "SUBSTR" | "SUBSTRING" => some (substringExpr g key)
    | "OVERLAY" => some (overlayExpr g)
    | "TRIM" => some (trimExpr g)
    | "INTERVAL" => some (interval operand)
    | "NOT" => some do
      if ← word? "EXISTS" then return .existsIn true (← queryInParens g)
      else return .unary .not (← g.expr Strength.not)
    | "CIRCLE" | "BOX" | "PATH" | "LINE" | "LSEG" | "POINT" | "POLYGON" => some do
      return .phrase (Text.asciiLower key ++ " " ++ (← value).print)
    | _ => none

/-- The phrase that a word opens together with the token after it. -/
def phraseBefore (g : Grammar) (operand : Parser Expr) (name : Ident) (key : String)
    (after : Token) : Option (Parser Expr) :=
  if key == "POSITION" && after == .symbol "(" then some do
    orElse (positionExpr g) (call g operand false [name])
  else if key == "ARRAY" && after == .symbol "[" then some do
    symbol "["
    let es ← commaSeparatedUntil "]" g.anyExpr
    symbol "]"
    return .array es
  else if key == "ARRAY" && after == .symbol "(" then some do
    return .queryCall [name] (← queryInParens g)
  else phraseOf g operand name key

/-- A word that opens no phrase: a call, a constant with an introducer, or a name. -/
def plainWord (g : Grammar) (operand : Parser Expr) (name : Ident) : Parser Expr := do
  let t ← peek
  let introduces := name.text.startsWith "_"
  match t.token with
  | .symbol "(" => call g operand false [name]
  | .quoted .plain s =>
    if introduces then
      let _ ← next
      return .phrase (name.print ++ " " ++ quotedText .plain s)
    else return .ident name
  | .quoted .hex s =>
    if introduces then
      let _ ← next
      return .phrase (name.print ++ " " ++ quotedText .hex s)
    else return .ident name
  | _ => return .ident name

/-- The words that are never taken for a name when the phrase they open cannot be read. -/
def neverNames : List String :=
  ["EXISTS", "INTERVAL", "STRUCT", "TRIM"]

/-- An operand that starts with a word, after the word. The second component tells that a collation
may follow. -/
def wordOperand (g : Grammar) (operand : Parser Expr) (name : Ident) (key : String) :
    Parser (Expr × Bool) := do
  match phraseBefore g operand name key (← peek).token with
  | none => return (← plainWord g operand name, true)
  | some phrase =>
    match ← outcome phrase with
    | .ok e => return (e, true)
    | .error stop =>
      if neverNames.contains key then fail stop.fault
      else
        match ← outcome (plainWord g operand name) with
        | .ok e => return (e, false)
        | .error _ => fail stop.fault

/-- A call between braces, after the opening one. -/
def bracedCall (g : Grammar) (operand : Parser Expr) : Parser Expr := do
  word "FN"
  call g operand true (← objectName)

/-- A point in time between braces, after the opening one. -/
def bracedTime : Parser Expr := do
  let t ← next
  match t.token with
  | .word s =>
    if s ∈ ["d", "t", "ts"] then
      return .phrase ("\x7b" ++ s ++ " " ++ (← value).print ++ "\x7d")
    else expectedBut "a date or time" t
  | _ => expectedBut "a date or time" t

/-- The signs that stand before their operand without a blank. -/
def closeSigns : List String :=
  ["!!", "|/", "||/", "@", "~"]

/-- The signs that stand before their operand with a blank. -/
def looseSigns : List String :=
  ["#", "@-@", "@@", "?-", "?|"]

/-- An operand that starts with a symbol, after the symbol. -/
def symbolOperand (g : Grammar) (operand : Parser Expr) (t : Lexeme) (s : String) :
    Parser Expr := do
  if s == "-" then return .unary .minus (← g.expr Strength.product)
  else if s == "+" then return .unary .plus (← g.expr Strength.product)
  else if s == "(" then parenthesized g
  else if s == "[" then
    let es ← commaSeparatedUntil "]" g.anyExpr
    symbol "]"
    return .phrase ("[" ++ commas (es.map Expr.print) ++ "]")
  else if closeSigns.contains s then
    return .phrase (s ++ (← g.expr Strength.sum).print)
  else if looseSigns.contains s then
    return .phrase (s ++ " " ++ (← g.expr Strength.sum).print)
  else if s == "\x7b" then
    match ← attempt (orElse (bracedCall g operand) bracedTime) with
    | some e =>
      symbol "\x7d"
      return e
    | none => expectedBut "an expression" t
  else expectedBut "an expression" t

/-- An operand. An interval's number is an operand of its own without any nesting, so `fuel` bounds
how many of them stand one before the other. -/
def operand (g : Grammar) : Nat → Parser Expr
  | 0 => expected "an expression"
  | fuel + 1 => do
    match ← attempt (typedConstant g (operand g fuel)) with
    | some e => return e
    | none =>
      let start ← get
      let t ← next
      match t.token with
      | .word s => finish (← wordOperand g (operand g fuel) ⟨s, none⟩ t.key)
      | .delimited s => finish (← wordOperand g (operand g fuel) ⟨s, some '"'⟩ "")
      | .symbol ":" => constant start
      | .symbol s => finish (← symbolOperand g (operand g fuel) t s, true)
      | .number _ _ | .quoted _ _ | .dollar _ _ | .placeholder _ => constant start
      | _ => expectedBut "an expression" t
where
  finish : Expr × Bool → Parser Expr
    | (e, true) => collated e
    | (e, false) => return e
  constant (start : List Lexeme) : Parser Expr := do
    set start
    collated (.value (← value))

end SqlLayout.Sql.Parser
