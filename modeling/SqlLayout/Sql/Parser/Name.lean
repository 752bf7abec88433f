import SqlLayout.Sql.Parser.Basic
import SqlLayout.Sql.Keyword

/-!
Names, aliases and constants.
-/

namespace SqlLayout.Sql.Parser

/-! ### Names -/

/-- A name. A constant between single quotes is taken for a name too. -/
def ident : Parser Ident := do
  let t ← next
  match t.token with
  | .word s => return ⟨s, none⟩
  | .delimited s => return ⟨s, some '"'⟩
  | .quoted .plain s => return ⟨s, some '\x27'⟩
  | _ => expectedBut "identifier" t

/-- A name of one or more parts. -/
def objectName : Parser ObjectName :=
  manyWith (symbol? ".") ident

/-- One or more names of several parts with commas between them. -/
def objectNames : Parser (List ObjectName) :=
  commaSeparated objectName

/-- One or more names with commas between them. -/
def idents : Parser (List Ident) :=
  commaSeparated ident

/-- One or more names between parentheses. -/
def identList : Parser (List Ident) :=
  parens idents

/-- A list between parentheses, where it is due. -/
def listInParens {α : Type} (optional : Bool) (p : Parser α) : Parser (List α) := do
  if ← symbol? "(" then
    let items ← commaSeparated p
    symbol ")"
    return items
  else if optional then return []
  else expected "a list of columns in parentheses"

/-- Names between parentheses, where they are due. -/
def columnList (optional : Bool) : Parser (List Ident) :=
  listInParens optional ident

/-! ### Constants -/

/-- The number that decimal digits stand for. -/
def digitsValue (digits : String) : Nat :=
  digits.toList.foldl (fun n c => n * 10 + (c.toNat - 48)) 0

/-- The value of decimal digits that stay below `bound`; `type` names the numbers that do. -/
def boundedOf (type : String) (bound : Nat) (t : Lexeme) (digits : String) : Parser Nat :=
  let refuse (why : String) : Parser Nat :=
    failWith ("Could not parse '" ++ digits ++ "' as " ++ type ++ ": " ++ why ++ t.placeText)
  if digits.toList.all Char.isDigit then
    let n := digitsValue digits
    if n < bound then pure n else refuse "number too large to fit in target type"
  else refuse "invalid digit found in string"

/-- A whole number. -/
def natural : Parser Nat := do
  let t ← next
  match t.token with
  | .number d _ => boundedOf "u64" UInt64.size t d
  | _ => expectedBut "literal int" t

/-- A whole number with an optional sign. -/
def integer : Parser Int := do
  let negative ← symbol? "-"
  unless negative do
    let _ ← symbol? "+"
  let t ← peek
  match t.token with
  | .number d _ =>
    let _ ← next
    let n ← boundedOf "i64" (UInt64.size / 2) t d
    return if negative then -n else n
  | _ => expectedBut "number" t

/-- A parameter whose name follows the sign `s` without a gap. -/
def namedPlaceholder (s : String) : Parser Value := do
  match (← peek).gap with
  | some gap => failWith ("Expected: placeholder, found: " ++ gap.found)
  | none =>
    let t ← next
    match t.token with
    | .word w | .delimited w | .number w false => return .placeholder (s ++ w)
    | _ => expectedBut "placeholder" t

/-- A constant. -/
def value : Parser Value := do
  let t ← next
  match t.token with
  | .word _ =>
    match t.key with
    | "TRUE" => return .boolean true
    | "FALSE" => return .boolean false
    | "NULL" => return .null
    | _ => expectedBut "a concrete value" t
  | .delimited s => return .other (inQuotes '"' s)
  | .number d long => return .number d long
  | .quoted .plain s => return .string s
  | .quoted q s => return .other (quotedText q s)
  | .dollar tag s => return .other (Token.dollar tag s).text
  | .placeholder s => return .placeholder s
  | .symbol s => if s == ":" || s == "@" then namedPlaceholder s else expectedBut "a value" t
  | _ => expectedBut "a value" t

/-- A number or a parameter, as text. -/
def numberText : Parser String := do
  let start ← get
  match ← value with
  | .number d long => return (Value.number d long).print
  | .placeholder t => return t
  | _ =>
    set start
    expected "literal number"

/-- A number or a parameter with an optional sign, as text. -/
def signedNumber : Parser String := do
  if ← symbol? "+" then return "+" ++ (← numberText)
  else if ← symbol? "-" then return "-" ++ (← numberText)
  else numberText

/-- A text: a constant between quotes, a delimited name, or a bare word that is no keyword. -/
def stringText : Parser String := do
  let t ← next
  match t.token with
  | .word s => if keywords.contains t.key then expectedBut "literal string" t else return s
  | .delimited s => return s
  | .quoted .plain s => return s
  | .quoted .escaped s => return s
  | .quoted .unicode s => return s
  | _ => expectedBut "literal string" t

/-- A text of one byte. -/
def stringChar : Parser Unit := do
  let t ← peek
  let s ← stringText
  unless s.utf8ByteSize == 1 do
    failWith ("Expect a char, found " ++ Text.quoted s ++ t.placeText)

/-! ### Aliases -/

/-- The words that cannot name a column without `AS`. -/
def reservedForColumn : List String :=
  ["WITH", "EXPLAIN", "ANALYZE", "SELECT", "WHERE", "GROUP", "SORT", "HAVING", "ORDER", "TOP",
    "LATERAL", "VIEW", "LIMIT", "OFFSET", "FETCH", "UNION", "EXCEPT", "EXCLUDE", "INTERSECT", "MINUS",
    "CLUSTER", "DISTRIBUTE", "RETURNING", "FROM", "INTO", "END"]

/-- The words that cannot name a table without `AS`. -/
def reservedForTable : List String :=
  ["WITH", "EXPLAIN", "ANALYZE", "SELECT", "WHERE", "GROUP", "SORT", "HAVING", "ORDER", "PIVOT",
    "UNPIVOT", "TOP", "LATERAL", "VIEW", "LIMIT", "OFFSET", "FETCH", "UNION", "EXCEPT",
    "INTERSECT", "MINUS", "ON", "JOIN", "INNER", "CROSS", "FULL", "LEFT", "RIGHT", "NATURAL",
    "USING", "CLUSTER", "DISTRIBUTE", "GLOBAL", "ANTI", "SEMI", "RETURNING", "ASOF",
    "MATCH_CONDITION", "OUTER", "SET", "QUALIFY", "WINDOW", "END", "FOR", "PARTITION", "PREWHERE",
    "SETTINGS", "FORMAT", "START", "CONNECT", "MATCH_RECOGNIZE", "SAMPLE", "TABLESAMPLE", "FROM",
    "OPEN"]

/-- A name after `AS`, or a bare name. A bare word must be none of `reserved`, and a word in either
place none of `never`. -/
def aliasExcept? (never reserved : List String) : Parser (Option Ident) := do
  let explicit ← word? "AS"
  let t ← peek
  let refuse : Parser (Option Ident) := do
    if explicit then
      let _ ← next
      expectedBut "an identifier after AS" t
    else return none
  match t.token with
  | .word s =>
    if !never.contains t.key && (explicit || !reserved.contains t.key) then
      let _ ← next
      return some ⟨s, none⟩
    else refuse
  | .delimited s =>
    let _ ← next
    return some ⟨s, some '"'⟩
  | .quoted .plain s =>
    let _ ← next
    return some ⟨s, some '\x27'⟩
  | _ => refuse

/-- A name after `AS`, or a bare name that is not reserved. -/
def alias? (reserved : List String) : Parser (Option Ident) :=
  aliasExcept? [] reserved

end SqlLayout.Sql.Parser
