import SqlLayout.Sql.Parser.TableDef

/-!
Definitions of types, domains and operators.
-/

namespace SqlLayout.Sql.Parser

/-- Either word for a truth value, or none. -/
def truthWord : Parser Unit :=
  discard (oneOf? ["TRUE", "FALSE"])

/-- A text whose first character is taken. -/
def firstChar (k : String) : Parser Unit := do
  if (← stringText).isEmpty then failWith (k ++ " value must be a single character")

/-! ### Types -/

/-- One option of a range type. -/
def rangeOption (g : Grammar) : Parser Unit := do
  let k ← oneOfAs "range option keyword" ["SUBTYPE", "SUBTYPE_OPCLASS", "COLLATION", "CANONICAL",
    "SUBTYPE_DIFF", "MULTIRANGE_TYPE_NAME"]
  symbol "="
  if k == "SUBTYPE" then discard (dataType g) else discard objectName

/-- One attribute of a composite type. -/
def typeAttribute (g : Grammar) : Parser Unit := do
  discard ident
  discard (dataType g)
  discard (afterWord "COLLATE" objectName)

/-- The options of a base type. -/
def baseTypeKeys : List String :=
  ["INPUT", "OUTPUT", "RECEIVE", "SEND", "TYPMOD_IN", "TYPMOD_OUT", "ANALYZE", "SUBSCRIPT",
    "INTERNALLENGTH", "PASSEDBYVALUE", "ALIGNMENT", "STORAGE", "LIKE", "CATEGORY", "PREFERRED",
    "DEFAULT", "ELEMENT", "DELIMITER", "COLLATABLE"]

/-- The value of an option of a base type. -/
def baseTypeValue (g : Grammar) (k : String) : Parser Unit := do
  symbol "="
  match k with
  | "INTERNALLENGTH" => unless ← word? "VARIABLE" do discard natural
  | "ALIGNMENT" =>
    discard (oneOfAs "alignment value (char, int2, int4, or double)" ["CHAR", "INT2", "INT4", "DOUBLE"])
  | "STORAGE" =>
    discard (oneOfAs "storage value (plain, external, extended, or main)"
      ["PLAIN", "EXTERNAL", "EXTENDED", "MAIN"])
  | "LIKE" | "ELEMENT" => discard (dataType g)
  | "CATEGORY" | "DELIMITER" => firstChar k
  | "PREFERRED" | "COLLATABLE" => truthWord
  | "DEFAULT" => discard g.anyExpr
  | _ => discard objectName

/-- One option of a base type. -/
def baseTypeOption (g : Grammar) : Parser Unit := do
  let k ← oneOfAs "SQL definition option keyword" baseTypeKeys
  unless k == "PASSEDBYVALUE" do baseTypeValue g k

/-- The definition of a type after the word `TYPE`. -/
def typeDef (g : Grammar) : Parser Unit := do
  discard objectName
  if ← word? "AS" then
    if ← word? "ENUM" then discard (parens (commaSeparatedUntil ")" ident))
    else if ← word? "RANGE" then discard (parens (commaSeparatedUntil ")" (rangeOption g)))
    else if ← nextIs "(" then discard (parens (commaSeparatedUntil ")" (typeAttribute g)))
    else expected "ENUM, RANGE, or '(' after AS"
  else if ← nextIs "(" then discard (parens (commaSeparatedUntil ")" (baseTypeOption g)))

/-- The definition of a domain after the word `DOMAIN`. -/
def domainDef (g : Grammar) : Parser Unit := do
  discard objectName
  word "AS"
  discard (dataType g)
  discard (afterWord "COLLATE" ident)
  discard (afterWord "DEFAULT" g.anyExpr)
  repeatFrom () fun _ => do
    if ← tableConstraint g then return .inl () else return .inr ()

/-! ### Operators -/

/-- The name of an operator; any token may be a part of it. -/
def operatorSign : Parser Unit :=
  discard (manyWith (symbol? ".") next)

/-- The name of an operator, bare or after the word `OPERATOR`. -/
def operatorSignOf : Parser Unit := do
  if ← word? "OPERATOR" then parens operatorSign else operatorSign

/-- The types of an operator's operands in parentheses, of which the left one may be missing. -/
def operandTypes (g : Grammar) : Parser Unit := parens do
  unless ← word? "NONE" do discard (dataType g)
  symbol ","
  discard (dataType g)

/-- The parts of an operator's definition. -/
def operatorKeys : List String :=
  ["FUNCTION", "PROCEDURE", "LEFTARG", "RIGHTARG", "COMMUTATOR", "NEGATOR", "RESTRICT", "JOIN",
    "HASHES", "MERGES"]

/-- The value of a part of an operator's definition. -/
def operatorPart (g : Grammar) (k : String) : Parser Unit := do
  if k == "HASHES" || k == "MERGES" then return
  symbol "="
  match k with
  | "LEFTARG" | "RIGHTARG" => discard (dataType g)
  | "COMMUTATOR" | "NEGATOR" => operatorSignOf
  | _ => discard objectName

/-- The definition of an operator after the word `OPERATOR`. Each part stands at most once, and the
function must be there. -/
def operatorDef (g : Grammar) : Parser Unit := do
  operatorSign
  symbol "("
  let found ← repeatFrom ([] : List String) fun found => do
    let k ← oneOf operatorKeys
    -- A procedure is another word for a function.
    let part := if k == "PROCEDURE" then "FUNCTION" else k
    if found.contains part then
      failWith ("Duplicate or unexpected keyword " ++ k ++ " in CREATE OPERATOR")
    operatorPart g k
    if ← symbol? "," then return .inl (part :: found) else return .inr (part :: found)
  symbol ")"
  unless found.contains "FUNCTION" do failWith "CREATE OPERATOR requires FUNCTION parameter"

/-- The definition of an operator family after its first words. -/
def operatorFamilyDef : Parser Unit := do
  discard objectName
  word "USING"
  discard ident

/-- What an operator of a class is used for. -/
def operatorPurpose : Parser Unit := do
  if ← word? "FOR" then
    if ← word? "SEARCH" then return
    else if ← words? ["ORDER", "BY"] then discard objectName
    else expected "SEARCH or ORDER BY after FOR"

/-- Types with commas between them up to a closing parenthesis; a comma may stand after the last. -/
def looseTypes (g : Grammar) : Parser Unit := do
  repeatFrom () fun _ => do
    if ← nextIs ")" then return .inr ()
    discard (dataType g)
    if ← symbol? "," then return .inl () else return .inr ()
  symbol ")"

/-- One item of an operator class. -/
def operatorClassItem (g : Grammar) : Parser Bool := do
  match ← oneOf? ["OPERATOR", "FUNCTION", "STORAGE"] with
  | some "OPERATOR" =>
    discard natural
    operatorSign
    if ← symbol? "(" then
      discard (dataType g)
      symbol ","
      discard (dataType g)
      symbol ")"
    operatorPurpose
    return true
  | some "FUNCTION" =>
    discard natural
    if ← symbol? "(" then
      unless ← nextIs ")" do
        discard (commaSeparated (dataType g))
        symbol ")"
    discard objectName
    if ← symbol? "(" then looseTypes g
    return true
  | some _ =>
    discard (dataType g)
    return true
  | none => return false

/-- The definition of an operator class after its first words. -/
def operatorClassDef (g : Grammar) : Parser Unit := do
  discard objectName
  discard (word? "DEFAULT")
  words ["FOR", "TYPE"]
  discard (dataType g)
  word "USING"
  discard ident
  discard (afterWord "FAMILY" objectName)
  word "AS"
  repeatFrom () fun _ => do
    if ← operatorClassItem g then
      if ← symbol? "," then return .inl () else return .inr ()
    else return .inr ()

end SqlLayout.Sql.Parser
