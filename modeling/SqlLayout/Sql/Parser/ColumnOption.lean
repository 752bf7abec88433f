import SqlLayout.Sql.Parser.Nested

/-!
The options of a column's definition, each as its text, and the parts that they share with the
constraints of a table and with sequences.
-/

namespace SqlLayout.Sql.Parser

open Text (joinWith)

/-! ### Sequences -/

/-- A bound of a sequence, or its absence. -/
def sequenceBound (k : String) : Parser (List String) := do
  if ← word? k then return [" " ++ k ++ " " ++ (← signedNumber)]
  else if ← words? ["NO", k] then return [" NO " ++ k]
  else return []

/-- A number of a sequence after its keyword and a word that may be left out. -/
def sequenceNumber (k filler : String) : Parser (List String) := do
  if ← word? k then
    let filled ← word? filler
    return [" " ++ k ++ (if filled then " " ++ filler else "") ++ " " ++ (← signedNumber)]
  else return []

/-- The options of a sequence in their fixed order, each with the blank before it. -/
def sequenceOptions : Parser (List String) := do
  let increment ← sequenceNumber "INCREMENT" "BY"
  let low ← sequenceBound "MINVALUE"
  let high ← sequenceBound "MAXVALUE"
  let start ← sequenceNumber "START" "WITH"
  let cache ← if ← word? "CACHE" then do pure [" CACHE " ++ (← signedNumber)] else pure []
  let cycle ← do
    if ← words? ["NO", "CYCLE"] then pure [" NO CYCLE"]
    else if ← word? "CYCLE" then pure [" CYCLE"]
    else pure []
  return increment ++ low ++ high ++ start ++ cache ++ cycle

/-- The options of a sequence in parentheses, with the blank before them; empty when there are
none. -/
def sequenceInParens : Parser String := do
  if ← symbol? "(" then
    let options ← sequenceOptions
    symbol ")"
    return if options.isEmpty then "" else " (" ++ String.join options ++ " )"
  else return ""

/-! ### Constraints -/

/-- When a constraint is checked. -/
structure Checking where
  deferrable : Option String
  initially : Option String
  enforced : Option String

/-- The first run of keywords that comes next, as text, unless an earlier one was found. -/
def onceOf (found : Option String) (runs : List (List String)) : Parser (Option String) := do
  if found.isSome then return none
  return (← oneOfRuns? runs).map (joinWith " ")

/-- When a constraint is checked, with the blank before each part. Each part may stand once, in any
order. -/
def checking : Parser String :=
  repeatFrom (⟨none, none, none⟩ : Checking) fun c => do
    if let some t ← onceOf c.deferrable [["NOT", "DEFERRABLE"], ["DEFERRABLE"]] then
      return .inl { c with deferrable := some t }
    if c.initially.isNone then
      if ← word? "INITIALLY" then
        let k ← oneOfAs "one of DEFERRED or IMMEDIATE" ["DEFERRED", "IMMEDIATE"]
        return .inl { c with initially := some ("INITIALLY " ++ k) }
    if let some t ← onceOf c.enforced [["ENFORCED"], ["NOT", "ENFORCED"]] then
      return .inl { c with enforced := some t }
    return .inr (clause " " c.deferrable ++ clause " " c.initially ++ clause " " c.enforced)

/-- What happens to rows that refer to a row that goes away. -/
def referentialAction : Parser String := do
  match ← oneOfRuns? [["RESTRICT"], ["CASCADE"], ["SET", "NULL"], ["NO", "ACTION"],
      ["SET", "DEFAULT"]] with
  | some ks => return joinWith " " ks
  | none => expected "one of RESTRICT, CASCADE, SET NULL, NO ACTION or SET DEFAULT"

/-- The rules of a reference. -/
structure ReferenceRules where
  matching : Option String
  onDelete : Option String
  onUpdate : Option String

/-- The rules of a reference, each at most once and in any order, with the blank before each. -/
def referenceRules : Parser String :=
  repeatFrom (⟨none, none, none⟩ : ReferenceRules) fun r => do
    if r.matching.isNone then
      if ← word? "MATCH" then
        let k ← oneOfAs "one of FULL, PARTIAL or SIMPLE" ["FULL", "PARTIAL", "SIMPLE"]
        return .inl { r with matching := some k }
    if r.onDelete.isNone then
      if ← words? ["ON", "DELETE"] then
        return .inl { r with onDelete := some (← referentialAction) }
    if r.onUpdate.isNone then
      if ← words? ["ON", "UPDATE"] then
        return .inl { r with onUpdate := some (← referentialAction) }
    return .inr (clause " MATCH " r.matching ++ clause " ON DELETE " r.onDelete ++
      clause " ON UPDATE " r.onUpdate)

/-- A reference to another table, after the word that announces it, with the rules and the checking
after it. -/
def reference : Parser String := do
  let name ← objectName
  let columns ← columnList true
  let rules ← referenceRules
  let checking ← checking
  return "REFERENCES " ++ name.print ++
    (if columns.isEmpty then "" else " (" ++ Text.commas (columns.map Ident.print) ++ ")") ++ rules ++
    checking

/-- A condition in parentheses, which may hold any operators. -/
def checkCondition (g : Grammar) : Parser Expr :=
  parens (within .anywhere g.anyExpr)

/-! ### Options -/

/-- The text of a comment. -/
def commentText : Parser String := do
  let t ← next
  match t.token with
  | .quoted .plain s => return s
  | .dollar _ s => return s
  | _ => expectedBut "string literal" t

/-- The value that a column gets when none is given. -/
def defaultValue (g : Grammar) : Parser Expr := do
  if ← symbol? "(" then within .anywhere do collated (← parenthesized g)
  else g.anyExpr

/-- How a column's values are made, after the word `GENERATED`. -/
def generation? (g : Grammar) : Parser (Option String) := do
  if ← words? ["ALWAYS", "AS", "IDENTITY"] then
    return some ("GENERATED ALWAYS AS IDENTITY" ++ (← sequenceInParens))
  else if ← words? ["BY", "DEFAULT", "AS", "IDENTITY"] then
    return some ("GENERATED BY DEFAULT AS IDENTITY" ++ (← sequenceInParens))
  else if ← words? ["ALWAYS", "AS"] then
    if ← nextIs "(" then
      let e ← checkCondition g
      unless ← word? "STORED" do expected "STORED"
      return some ("GENERATED ALWAYS AS (" ++ e.print ++ ") STORED")
    else return none
  else return none

/-- Words that other systems use for options. They are passed over. -/
def foreignOptions : Parser Unit := do
  for k in ["AUTO_INCREMENT", "AUTOINCREMENT", "ASC", "DESC"] do
    let _ ← word? k
  let _ ← words? ["ON", "UPDATE"]

/-- An option of a column that starts in the given scope. -/
def columnOptionHere? (g : Grammar) : Parser (Option String) := do
  if ← words? ["CHARACTER", "SET"] then return some ("CHARACTER SET " ++ (← objectName).print)
  else if ← word? "COLLATE" then return some ("COLLATE " ++ (← objectName).print)
  else if ← words? ["NOT", "NULL"] then return some "NOT NULL"
  else if ← word? "COMMENT" then return some ("COMMENT " ++ quotedText .plain (← commentText))
  else if ← word? "NULL" then return some "NULL"
  else if ← word? "DEFAULT" then return some ("DEFAULT " ++ (← defaultValue g).print)
  else if ← words? ["PRIMARY", "KEY"] then return some ("PRIMARY KEY" ++ (← checking))
  else if ← word? "UNIQUE" then return some ("UNIQUE" ++ (← checking))
  else if ← word? "REFERENCES" then return some (← reference)
  else if ← word? "CHECK" then return some ("CHECK (" ++ (← checkCondition g).print ++ ")")
  else
    foreignOptions
    if ← word? "GENERATED" then generation? g
    else
      for k in ["AS", "SRID", "IDENTITY"] do
        let _ ← word? k
      return none

/-- An option of a column. Inside it the operators that start the next option are left alone. -/
def columnOption? (g : Grammar) : Parser (Option String) :=
  within .columnDefinition (columnOptionHere? g)

/-- The options of a column, each of which may have a name. -/
def columnOptions (g : Grammar) : Parser (List String) :=
  many do
    if ← word? "CONSTRAINT" then
      let name ← ident
      match ← columnOption? g with
      | some option => return some ("CONSTRAINT " ++ name.print ++ " " ++ option)
      | none => expected "constraint details after CONSTRAINT <name>"
    else columnOption? g

end SqlLayout.Sql.Parser
