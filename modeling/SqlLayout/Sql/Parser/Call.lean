import SqlLayout.Sql.Parser.DataType

/-!
Function calls with their arguments, clauses and windows, and the sort lists that stand in them.
-/

namespace SqlLayout.Sql.Parser

open Text (commas joinWith)

/-- The direction and the place of nulls after a sort expression. -/
def sortOptions : Parser SortOptions := do
  let ascending ← match ← oneOf? ["ASC", "DESC"] with
    | some k => pure (some (k == "ASC"))
    | none => pure none
  let nullsFirst ← do
    if ← words? ["NULLS", "FIRST"] then pure (some true)
    else if ← words? ["NULLS", "LAST"] then pure (some false)
    else pure none
  return ⟨ascending, nullsFirst⟩

/-- One item of a sort list. -/
def sortItem (g : Grammar) : Parser SortItem := do
  let e ← g.anyExpr
  return .mk e (← sortOptions)

/-- A sort list. -/
def sortItems (g : Grammar) : Parser (List SortItem) :=
  commaSeparated (sortItem g)

/-- A sort list after its keywords; empty when they do not come next. -/
def orderBy (g : Grammar) : Parser (List SortItem) := do
  if ← words? ["ORDER", "BY"] then sortItems g else return []

/-- The names after the word that comes next, up to a star; `none` when no star ends them. -/
def starPath : Parser (Option ObjectName) := do
  let first ← ident
  let rest ← repeatFrom ([] : List Ident) fun acc => do
    if ← symbol? "." then
      let t ← next
      match t.token with
      | .word s => return .inl (⟨s, none⟩ :: acc)
      | .delimited s => return .inl (⟨s, some '"'⟩ :: acc)
      | .quoted .plain s => return .inl (⟨s, some '\x27'⟩ :: acc)
      | .symbol "*" => return .inr (some acc.reverse)
      | _ => expectedBut "an identifier or a '*' after '.'" t
    else return .inr none
  return rest.map (first :: ·)

/-- A star, a name and a star, or else what `otherwise` reads. -/
def starOr (otherwise : Parser Expr) : Parser Expr := do
  let t ← peek
  let names := match t.token with
    | .word _ | .delimited _ | .quoted .plain _ => true
    | _ => false
  if names && (← peekAt 1).token == .symbol "." then
    let start ← get
    match ← starPath with
    | some path => return .pathStar path
    | none =>
      set start
      otherwise
  else if t.token == .symbol "*" then
    let _ ← next
    return .star
  else otherwise

/-- A star, a name and a star, or an expression. -/
def starOrExpr (g : Grammar) : Parser Expr :=
  starOr g.anyExpr

/-- The sign between the name and the value of an argument. -/
def argOperator : Parser String := do
  if ← word? "VALUE" then return "VALUE"
  let t ← next
  match t.token with
  | .symbol s => if s ∈ ["=>", ":=", ":"] then return s else expectedBut "argument operator" t
  | _ => expectedBut "argument operator" t

/-- One argument. What comes first is read once, as the name of the argument when a sign follows it
and as the argument itself when none does. -/
def arg (g : Grammar) : Parser Expr := do
  let start ← get
  match ← outcome g.anyExpr with
  | .error stop => if stop.fault = .tooDeep then raise stop else starOr (raise stop)
  | .ok e =>
    let rest ← get
    let named ← attempt do
      let sign ← argOperator
      let v ← starOrExpr g
      return e.print ++ " " ++ sign ++ " " ++ v.print
    match named with
    | some text => return .namedArg text
    | none =>
      set start
      starOr do
        set rest
        return e

/-- A null rule of a JSON function. -/
def jsonNulls : Parser (List String) := do
  if ← words? ["ABSENT", "ON", "NULL"] then return ["ABSENT ON NULL"]
  else if ← words? ["NULL", "ON", "NULL"] then return ["NULL ON NULL"]
  else return []

/-- The result type of a JSON function. -/
def jsonReturning (g : Grammar) : Parser (List String) := do
  match ← afterWord "RETURNING" (dataType g) with
  | some t => return ["RETURNING " ++ t.print]
  | none => return []

/-- What a list aggregate does with too long a result. -/
def onOverflow (g : Grammar) : Parser (List String) := do
  if ← words? ["ON", "OVERFLOW"] then
    if ← word? "ERROR" then return ["ON OVERFLOW ERROR"]
    else
      word "TRUNCATE"
      let t ← peek
      let filler ← match t.token with
        | .quoted q _ =>
          if q == .bits || q == .bytes then expected "either filler, WITH, or WITHOUT in LISTAGG"
          else do pure (" " ++ (← g.anyExpr).print)
        | _ =>
          if t.key == "WITH" || t.key == "WITHOUT" then pure ""
          else expected "either filler, WITH, or WITHOUT in LISTAGG"
      match ← oneOf? ["WITH", "WITHOUT"] with
      | some k =>
        word "COUNT"
        return ["ON OVERFLOW TRUNCATE" ++ filler ++ " " ++ k ++ " COUNT"]
      | none => expected "either WITH or WITHOUT in LISTAGG"
  else return []

/-- The fault that `ALL` and `DISTINCT` stand together, from the place of the first one. -/
def bothAllAndDistinct {α : Type} (t : Lexeme) : Parser α :=
  failWith ("Cannot specify both ALL and DISTINCT" ++ t.placeText)

/-- The word that tells how equal arguments count. -/
def duplicates : Parser (Option String) := do
  let t ← peek
  let all ← word? "ALL"
  let distinct ← word? "DISTINCT"
  if all && distinct then bothAllAndDistinct t
  else return if all then some "ALL" else if distinct then some "DISTINCT" else none

/-- The arguments of a call and the clauses around them. -/
structure ArgList where
  duplicates : Option String
  args : List Expr
  before : List String
  orderBy : List SortItem
  clauses : List String

/-- Reads the arguments after the opening parenthesis, and the closing one. -/
def argList (g : Grammar) : Parser ArgList := do
  let early := (← jsonNulls) ++ (← jsonReturning g)
  if ← symbol? ")" then return ⟨none, [], early, [], []⟩
  let duplicates ← duplicates
  let args ← commaSeparated (arg g)
  let order ← orderBy g
  let limit ← match ← afterWord "LIMIT" g.anyExpr with
    | some e => pure ["LIMIT " ++ e.print]
    | none => pure []
  let overflow ← onOverflow g
  let nulls ← jsonNulls
  let returning ← jsonReturning g
  symbol ")"
  return ⟨duplicates, args, early, order, limit ++ overflow ++ nulls ++ returning⟩

/-- What stands after a number in an interval: its units, with the blank before them. -/
def intervalQualifier : Parser String := do
  let t ← peek
  let leading ← if intervalUnits.contains t.key then do pure (" " ++ (← timeField)) else pure ""
  if leading == " SECOND" then
    if ← symbol? "(" then
      let n ← natural
      let m ← if ← symbol? "," then do pure (some (← natural)) else pure none
      symbol ")"
      match m with
      | some m => return " SECOND (" ++ toString n ++ ", " ++ toString m ++ ")"
      | none => return " SECOND (" ++ toString n ++ ")"
    else return leading
  else
    let p ← precision
    let lead := if p.isEmpty then leading else leading ++ " " ++ p
    if ← word? "TO" then
      let last ← timeField
      if last == "SECOND" then
        let q ← precision
        return lead ++ " TO SECOND" ++ (if q.isEmpty then "" else " " ++ q)
      else return lead ++ " TO " ++ last
    else return lead

/-- One bound of a window's frame; `operand` reads the number of an interval. -/
def frameBound (g : Grammar) (operand : Parser Expr) : Parser String := do
  if ← words? ["CURRENT", "ROW"] then return "CURRENT ROW"
  let count ←
    if ← word? "UNBOUNDED" then pure "UNBOUNDED"
    else match (← peek).token with
      | .quoted .plain _ => do
        let e ← operand
        pure ("INTERVAL " ++ e.print ++ (← intervalQualifier))
      | _ => do pure (← g.anyExpr).print
  match ← oneOf? ["PRECEDING", "FOLLOWING"] with
  | some k => return count ++ " " ++ k
  | none => expected "PRECEDING or FOLLOWING"

/-- The frame of a window. -/
def frame (g : Grammar) (operand : Parser Expr) : Parser String := do
  let t ← next
  if t.key ∈ ["ROWS", "RANGE", "GROUPS"] then
    if ← word? "BETWEEN" then
      let low ← frameBound g operand
      word "AND"
      let high ← frameBound g operand
      return t.key ++ " BETWEEN " ++ low ++ " AND " ++ high
    else return t.key ++ " " ++ (← frameBound g operand)
  else expectedBut "ROWS, RANGE, GROUPS" t

/-- The name a window starts from. -/
def windowBase : Parser (Option Ident) := do
  let t ← peek
  match t.token with
  | .word s =>
    if keywords.contains t.key then return none
    else
      let _ ← next
      return some ⟨s, none⟩
  | .delimited s =>
    let _ ← next
    return some ⟨s, some '"'⟩
  | _ => return none

/-- A window after its opening parenthesis, with the closing one. -/
def windowSpec (g : Grammar) (operand : Parser Expr) : Parser Window := do
  let base ← windowBase
  let partitionBy ← if ← words? ["PARTITION", "BY"] then g.exprs else pure []
  let order ← orderBy g
  let frame ← if ← symbol? ")" then pure none else do
    let f ← frame g operand
    symbol ")"
    pure (some f)
  let spec := Window.spec partitionBy order frame
  match base with
  | none => return spec
  | some name =>
    -- The text of the rest starts with `OVER` and a parenthesis.
    let rest := String.ofList (spec.print.toList.drop " OVER (".length)
    return .named ("(" ++ name.print ++ (if rest == ")" then "" else " ") ++ rest)

/-- The rule for nulls after a call. -/
def nullTreatment : Parser (Option String) := do
  match ← oneOf? ["RESPECT", "IGNORE"] with
  | some k =>
    word "NULLS"
    return some (k ++ " NULLS")
  | none => return none

/-- A condition on the rows that a call sees. The words that start it are passed over even when the
condition does not follow. -/
def callFilter (g : Grammar) : Parser (Option Expr) := do
  if ← word? "FILTER" then
    if ← symbol? "(" then
      if ← word? "WHERE" then
        let e ← g.anyExpr
        symbol ")"
        return some e
  return none

/-- A call of the function with this name. -/
def call (g : Grammar) (operand : Parser Expr) (odbc : Bool) (name : ObjectName) :
    Parser Expr := do
  symbol "("
  let list ← argList g
  let withinGroup ← if ← words? ["WITHIN", "GROUP"] then
      parens do
        words ["ORDER", "BY"]
        sortItems g
    else pure []
  let filter ← callFilter g
  let nulls ← nullTreatment
  let window ← if ← word? "OVER" then
      if ← symbol? "(" then windowSpec g operand
      else do pure (Window.named (← ident).print)
    else pure .none
  return .call name odbc list.duplicates list.args list.before list.orderBy list.clauses withinGroup
    filter nulls window

end SqlLayout.Sql.Parser
