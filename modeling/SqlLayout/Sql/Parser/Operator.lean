import SqlLayout.Sql.Parser.Operand

/-!
Operators between operands, field access and subscripts. Each operator has a strength; an expression
is read by strength, so that `a + b * c` groups the product.
-/

namespace SqlLayout.Sql.Parser

/-! ### Access to fields and elements -/

/-- One step of an access: a point and what follows it, or a subscript in its brackets. -/
inductive Access
  | dot (expr : Expr)
  | subscript (text : String)

/-- A step as it is written. -/
def Access.print : Access → String
  | .dot e => "." ++ e.print
  | .subscript t => "[" ++ t ++ "]"

/-- The name that a step adds, if it adds one. -/
def Access.ident? : Access → Option Ident
  | .dot (.ident n) => some n
  | _ => none

/-- The steps that one operand after a point stands for. -/
def accessOf : Expr → List Access
  | .path names => names.map fun n => .dot (.ident n)
  | e => [.dot e]

/-- A call with names put before the name of its function; `none` for what is not a call. -/
def qualified (names : List Ident) : Expr → Option Expr
  | .bareCall n => some (.bareCall (names ++ n))
  | .queryCall n q => some (.queryCall (names ++ n) q)
  | .call n odbc duplicates args before order clauses group filter nulls window =>
    some (.call (names ++ n) odbc duplicates args before order clauses group filter nulls window)
  | _ => none

/-- All names of a chain, if it has nothing but names. -/
def chainNames? (root : Expr) (steps : List Access) : Option (List Ident) :=
  match root with
  | .ident n => (steps.mapM Access.ident?).map (n :: ·)
  | _ => none

/-- The expression of a root and the steps after it: a path of names, a call with a qualified name,
or an access. -/
def chain (root : Expr) (steps : List Access) : Expr :=
  match steps.getLast? with
  | none => root
  | some last =>
    match chainNames? root steps with
    | some names => .path names
    | none =>
      let access := Expr.access (root.print ++ String.join (steps.map Access.print))
      match root, chainNames? root steps.dropLast, last with
      | .ident _, some names, .dot e => (qualified names e).getD access
      | _, _, _ => access

/-- What stands between the brackets of a subscript, after the opening one. -/
def subscript (g : Grammar) : Parser String := do
  let low ← if ← symbol? ":" then pure none else do pure (some (← g.anyExpr).print)
  let lead := low.getD ""
  if ← symbol? "]" then return if low.isSome then lead else ":"
  if low.isSome then symbol ":"
  if ← symbol? "]" then return lead ++ ":"
  let high ← g.anyExpr
  let slice := lead ++ ":" ++ high.print
  if ← symbol? "]" then return slice
  symbol ":"
  if ← symbol? "]" then return slice
  let stride ← g.anyExpr
  symbol "]"
  return slice ++ ":" ++ stride.print

/-- The steps after a point. -/
def afterPoint (g : Grammar) : Parser (List Access) := do
  let t ← peek
  match t.token with
  | .quoted .plain s =>
    let _ ← next
    return [.dot (.ident ⟨s, some '\x27'⟩)]
  | _ => return accessOf (← g.expr Strength.period)

/-- The points and subscripts after an operand. -/
def accesses (g : Grammar) (root : Expr) : Parser Expr :=
  repeatFrom ([] : List Access) fun steps => do
    if ← symbol? "." then
      if ← symbol? "*" then
        match chainNames? root steps with
        | some names => return .inr (.pathStar names)
        | none => expected "an identifier or a '*' after '.'"
      else return .inl (steps ++ (← afterPoint g))
    else if ← symbol? "[" then return .inl (steps ++ [.subscript (← subscript g)])
    else return .inr (chain root steps)

/-! ### Strengths -/

/-- The words that follow `NOT` in a predicate. -/
def predicateWords : List String :=
  ["IN", "BETWEEN", "LIKE", "ILIKE", "RLIKE", "REGEXP", "MATCH", "SIMILAR", "MEMBER"]

/-- The strength of the operator that a word starts; zero when it starts none. In a column's
definition `COLLATE` and `NOT NULL` start none. -/
def wordStrength (scope : Scope) (key second third : String) : Nat :=
  if predicateWords.contains key then Strength.pattern
  else match key with
    | "COLLATE" => if scope == .columnDefinition then 0 else Strength.collation
    | "OR" => Strength.or
    | "AND" => Strength.and
    | "XOR" => Strength.xor
    | "AT" => if second == "TIME" && third == "ZONE" then Strength.timeZone else 0
    | "NOT" =>
      if predicateWords.contains second then Strength.pattern
      else if second == "NULL" && scope != .columnDefinition then Strength.is
      else 0
    | "NOTNULL" | "IS" => Strength.is
    | "OVERLAPS" | "OPERATOR" => Strength.pattern
    | "DIV" => Strength.product
    | _ => 0

/-- The operators that compare. -/
def comparisonSymbols : List String :=
  [":=", "=", "<", "<=", "<>", ">", ">=", "==", "~", "~*", "!~", "!~*", "~~", "~~*", "!~~", "!~~*",
    "<=>"]

/-- The operators that are neither comparisons nor arithmetic. -/
def otherSymbols : List String :=
  ["->", "->>", "#>", "#>>", "@>", "<@", "#-", "@?", "@@", "?", "?&", "?|", "!", "&&", "^@", "||",
    "#", ">>", "<<", "|", "?-", "##", "&<", "&>", "?-|", "&<|", "|&>", "<->", "<^", ">^", "?#",
    "?||", "~=", "@", "<<|", "|>>", "&"]

/-- The strength of the operator that a symbol is; zero when it is none. -/
def symbolStrength (s : String) : Nat :=
  if comparisonSymbols.contains s then Strength.comparison
  else if otherSymbols.contains s then Strength.other
  else match s with
    | "[" => Strength.bracket
    | "^" => Strength.power
    | "+" | "-" => Strength.sum
    | "*" | "/" | "%" => Strength.product
    | "::" => Strength.cast
    | "." => Strength.period
    | _ => 0

/-- The strength of the operator that comes next; zero when none does. -/
def nextStrength : Parser Nat := do
  let t ← peek
  match t.token with
  | .word _ => return wordStrength (← read) t.key (← peekAt 1).key (← peekAt 2).key
  | .symbol s => return symbolStrength s
  | .operator _ => return Strength.other
  | _ => return 0

/-! ### Operators -/

/-- The operators that may compare with a quantified set. -/
def quantifiable : List String :=
  ["=", ">", "<", ">=", "<=", "<>", "~", "~*", "!~", "!~*", "~~", "~~*", "!~~", "!~~*"]

/-- The symbols that stand between two operands and nothing else. -/
def binarySymbol? (s : String) : Option String :=
  if s == "==" then some "="
  else if s == "!" || s == "[" || s == "::" then none
  else some s

/-- The name of an operator written as `OPERATOR(a.b)`, after the first word. -/
def operatorName : Parser String := parens do
  let parts ← manyWith (symbol? ".") do return (← next).token.text
  return "OPERATOR(" ++ Text.joinWith "." parts ++ ")"

/-- The operator between two operands that a token is. -/
def binaryOp? (t : Lexeme) : Parser (Option BinaryOp) := do
  match t.token with
  | .symbol s => return (binarySymbol? s).map .other
  | .operator s => return some (.other s)
  | .word _ =>
    match t.key with
    | "AND" => return some .and
    | "OR" => return some .or
    | "XOR" | "OVERLAPS" => return some (.other t.key)
    | "OPERATOR" => return some (.other (← operatorName))
    | _ => return none
  | _ => return none

/-- The right side of an operator: an operand, or a quantified set. -/
def rightSide (g : Grammar) (strength : Nat) (left : Expr) (t : Lexeme) (op : BinaryOp) :
    Parser Expr := do
  match ← oneOf? ["ANY", "ALL", "SOME"] with
  | none => return .binary left op (← g.expr strength)
  | some k =>
    let start ← get
    symbol "("
    let key := (← peek).key
    let right ← if key == "SELECT" || key == "WITH" then do
        set start
        g.expr strength
      else do
        let e ← g.expr strength
        symbol ")"
        pure e
    unless quantifiable.contains op.print do
      failWith ("Expected one of [=, >, <, =>, =<, !=, ~, ~*, !~, !~*, ~~, ~~*, !~~, !~~*] " ++
        "as comparison operator, found: " ++ op.print ++ t.placeText)
    let quantifier : Quantifier := match k with
      | "ALL" => .all
      | "SOME" => .some
      | _ => .any
    return .quantified left op.print quantifier right

/-- The truth values that a test may ask for. -/
def truths : List (String × Truth) :=
  [("NULL", .null), ("TRUE", .true), ("FALSE", .false), ("UNKNOWN", .unknown)]

/-- A test after `IS`. -/
def isTest (g : Grammar) (e : Expr) : Parser Expr := do
  let t ← peek
  let second := (← peekAt 1).key
  match truths.lookup t.key, t.key == "NOT", truths.lookup second with
  | some truth, _, _ =>
    let _ ← next
    return .is e false truth
  | none, true, some truth =>
    let _ ← next
    let _ ← next
    return .is e true truth
  | _, _, _ =>
    if ← words? ["DISTINCT", "FROM"] then return .distinctFrom e false (← g.anyExpr)
    else if ← words? ["NOT", "DISTINCT", "FROM"] then return .distinctFrom e true (← g.anyExpr)
    else
      let negated ← word? "NOT"
      let form ← oneOf? ["NFC", "NFD", "NFKC", "NFKD"]
      if ← word? "NORMALIZED" then
        return .phrase (e.print ++ " IS " ++ notWord negated ++
          clause "" (form.map (· ++ " ")) ++ "NORMALIZED")
      else expected "[NOT] NULL | TRUE | FALSE | DISTINCT | [form] NORMALIZED FROM after IS"

/-- A membership test after `IN`. -/
def inTest (g : Grammar) (e : Expr) (negated : Bool) : Parser Expr := do
  if ← word? "UNNEST" then
    let a ← parens g.anyExpr
    return .phrase (e.print ++ " " ++ notWord negated ++ "IN UNNEST(" ++ a.print ++ ")")
  symbol "("
  let test ← match ← attempt g.query with
    | some q => pure (Expr.inQuery e negated q)
    | none => do pure (Expr.inList e negated (← g.exprs))
  symbol ")"
  return test

/-- The pattern of a match and its escape character. -/
def matchTest (g : Grammar) (matching : Matching) (e : Expr) (negated : Bool) : Parser Expr := do
  let any ← if matching == .similarTo then pure false else word? "ANY"
  let form ← g.expr Strength.pattern
  let escape ← afterWord "ESCAPE" value
  let test := Expr.pattern matching e negated form escape
  if any then
    return .phrase (e.print ++ " " ++ notWord negated ++ matching.print ++ " ANY " ++ form.print ++
      clause " ESCAPE " (escape.map Value.print))
  else return test

/-- A predicate that may be negated, from its first word on. -/
def predicate (g : Grammar) (e : Expr) : Parser Expr := do
  let negated ← word? "NOT"
  let regexp ← word? "REGEXP"
  let rlike ← word? "RLIKE"
  let null ← if (← read) == .columnDefinition then pure false else word? "NULL"
  if regexp || rlike then
    let form ← g.expr Strength.pattern
    return .phrase (e.print ++ " " ++ notWord negated ++ (if regexp then "REGEXP " else "RLIKE ") ++
      form.print)
  else if negated && null then return .is e true .null
  else if ← word? "IN" then inTest g e negated
  else if ← word? "BETWEEN" then
    let low ← g.expr Strength.pattern
    word "AND"
    return .between e negated low (← g.expr Strength.pattern)
  else if ← word? "LIKE" then matchTest g .like e negated
  else if ← word? "ILIKE" then matchTest g .ilike e negated
  else if ← words? ["SIMILAR", "TO"] then matchTest g .similarTo e negated
  else expected "IN or BETWEEN after NOT"

/-- The fault that a token has a strength but joins no operands. -/
def noOperator (t : Lexeme) : Parser Expr :=
  let shown := match t.token with
    | .word s =>
      "Word(Word \x7b value: \"" ++ s ++ "\", quote_style: None, keyword: " ++ t.key ++ " \x7d)"
    | _ => "LBracket"
  failWith ("No infix parser for token " ++ shown ++ t.placeText)

/-- An operator that starts with a word and is not a plain one, after the word. -/
def wordOperator (g : Grammar) (strength : Nat) (e : Expr) (start : List Lexeme) (t : Lexeme) :
    Parser Expr :=
  match t.key with
  | "IS" => isTest g e
  | "AT" => do
    words ["TIME", "ZONE"]
    return .phrase (e.print ++ " AT TIME ZONE " ++ (← g.expr strength).print)
  | "NOT" | "IN" | "BETWEEN" | "LIKE" | "ILIKE" | "SIMILAR" | "REGEXP" | "RLIKE" => do
    set start
    predicate g e
  | "NOTNULL" => return .is e true .null
  | "MEMBER" => do
    if ← word? "OF" then
      let a ← parens g.anyExpr
      return .phrase (e.print ++ " MEMBER OF(" ++ a.print ++ ")")
    else expected "OF after MEMBER"
  | _ => noOperator t

/-- The operator that comes next, with what stands after it. -/
def afterOperand (g : Grammar) (strength : Nat) (e : Expr) : Parser Expr := do
  let start ← get
  let t ← next
  match ← binaryOp? t with
  | some op => rightSide g strength e t op
  | none =>
    match t.token with
    | .word _ => wordOperator g strength e start t
    | .symbol "::" => return .cast true e (← dataType g)
    | .symbol "!" => return .phrase (e.print ++ "!")
    | _ => noOperator t

/-- An expression whose operators bind more tightly than `strength`. -/
def exprAbove (g : Grammar) (strength : Nat) : Parser Expr := do
  let e ← operand g ((← remaining) + 1)
  let e ← accesses g e
  repeatFrom e fun e => do
    let s ← nextStrength
    if s ≤ strength || s == Strength.period then return .inr e
    else return .inl (← afterOperand g s e)

end SqlLayout.Sql.Parser
