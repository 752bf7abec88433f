import SqlLayout.Host.Parser.Pattern

/-!
Expressions.
-/

namespace SqlLayout.Host

/-! How tightly operators bind. -/

namespace Strength

def least : Nat := 0
def assign : Nat := 1
def range : Nat := 2
def or : Nat := 3
def and : Nat := 4
def compare : Nat := 6
def bitOr : Nat := 7
def bitXor : Nat := 8
def bitAnd : Nat := 9
def shift : Nat := 10
def sum : Nat := 11
def product : Nat := 12
def cast : Nat := 13

end Strength

/-- The operators between operands with their strengths. The first one that fits counts, so an
operator stands after those that start with it. -/
def operators : List (String × Nat) :=
  [("+=", Strength.assign), ("-=", Strength.assign), ("*=", Strength.assign), ("/=", Strength.assign),
    ("%=", Strength.assign), ("^=", Strength.assign), ("&=", Strength.assign), ("|=", Strength.assign),
    ("<<=", Strength.assign), (">>=", Strength.assign), ("&&", Strength.and), ("||", Strength.or),
    ("<<", Strength.shift), (">>", Strength.shift), ("==", Strength.compare),
    ("<=", Strength.compare), ("!=", Strength.compare), (">=", Strength.compare),
    ("+", Strength.sum), ("-", Strength.sum), ("*", Strength.product), ("/", Strength.product),
    ("%", Strength.product), ("^", Strength.bitXor), ("&", Strength.bitAnd), ("|", Strength.bitOr),
    ("<", Strength.compare), (">", Strength.compare)]

namespace Parser

/-- The operator that comes next. -/
def operator? : Parser (Option (String × Nat)) := do
  let ts ← trees
  return operators.find? fun (text, _) => (Ahead.mark text).holds ts

/-- Whether an assignment sign comes next. -/
def assignAhead : Parser Bool := do
  return (← ahead (.mark "=")) && !(← ahead (.mark "=>"))

/-- The strength of what comes next. -/
def strengthAhead : Parser Nat := do
  match ← operator? with
  | some (_, n) => return n
  | none =>
    if ← assignAhead then return Strength.assign
    else if ← ahead (.mark "..") then return Strength.range
    else if ← ahead (.word "as") then return Strength.cast
    else return Strength.least

/-- The operators after an operand that bind more tightly than the operator before it. -/
def operandRest (g : Grammar) (allowStruct : Bool) (strength : Nat) : Nat → ExprShape → Parser Unit
  | 0, _ => return
  | fuel + 1, shape => do
    let next ← strengthAhead
    if strength < next || (strength == next && strength == Strength.assign) then
      let before ← remaining
      let shape ← g.climb allowStruct next shape
      unless (← remaining) == before do operandRest g allowStruct strength fuel shape

/-- The operand after an operator. -/
def operand (g : Grammar) (allowStruct : Bool) (strength : Nat) : Parser Unit := do
  let shape ← g.unary allowStruct
  operandRest g allowStruct strength ((← remaining) + 1) shape

/-- Where a half-open range has no end. -/
def rangeEndsHere (allowStruct : Bool) : Parser Bool := do
  return (← atEnd) || ((← ahead (.mark ".")) && !(← ahead (.mark ".."))) ||
    (!allowStruct && (← ahead (.group .brace))) ||
    (← anyAhead [.mark ",", .mark ";", .mark "?", .mark "=>", .mark "=", .mark "+", .mark "/",
      .mark "%", .mark "^", .mark ">", .mark "<=", .mark "!=", .mark "-=", .mark "*=", .mark "&=",
      .mark "|=", .mark "<<=", .word "as"])

/-- A range after its first bound. -/
def rangeExpr (g : Grammar) (allowStruct : Bool) : Parser Unit := do
  let closed ← rangeLimits false
  unless !closed && (← rangeEndsHere allowStruct) do operand g allowStruct Strength.range

/-- Refuses what cannot follow a cast. -/
def checkCast : Parser Unit := do
  let refuse (what : String) : Parser Unit := failHere ("casts cannot be followed by " ++ what)
  if (← ahead (.mark ".")) && !(← ahead (.mark "..")) then
    if ← ahead2 (.word "await") then refuse "`.await`"
    else if (← ahead2 .name) && ((← ahead3 (.group .parenthesis)) || (← ahead3 (.mark "::"))) then
      refuse "a method call"
    else refuse "a field access"
  else if ← ahead (.mark "?") then refuse "`?`"
  else if ← ahead (.group .bracket) then refuse "indexing"
  else if ← ahead (.group .parenthesis) then refuse "a function call"

/-- The operators from a strength on that follow an operand. -/
def climbFrom (g : Grammar) (allowStruct : Bool) (least : Nat) : Nat → ExprShape → Parser ExprShape
  | 0, left => return left
  | fuel + 1, left => do
    if left == .range then return left
    else match ← operator? with
      | some (text, strength) =>
        if strength < least then return left
        else if strength == Strength.compare && left == .comparison then
          failHere "comparison operators cannot be chained"
        else
          mark text
          operand g allowStruct strength
          climbFrom g allowStruct least fuel
            (if strength == Strength.compare then .comparison else .other)
      | none =>
        if least ≤ Strength.assign && (← assignAhead) then
          mark "="
          operand g allowStruct Strength.assign
          climbFrom g allowStruct least fuel .other
        else if least ≤ Strength.range && (← ahead (.mark "..")) then
          rangeExpr g allowStruct
          climbFrom g allowStruct least fuel .range
        else if least ≤ Strength.cast && (← ahead (.word "as")) then
          word "as"
          let _ ← g.type false
          checkCast
          climbFrom g allowStruct least fuel .other
        else return left

/-- The operators from a strength on that follow an operand. -/
def climb (g : Grammar) (allowStruct : Bool) (least : Nat) (left : ExprShape) : Parser ExprShape := do
  climbFrom g allowStruct least ((← remaining) + 1) left

/-- An expression. -/
def expr (g : Grammar) (allowStruct : Bool) : Parser ExprShape := do
  let left ← g.unary allowStruct
  g.climb allowStruct Strength.least left

/-! ### Control flow -/

/-- A condition, after which a brace starts a block. -/
def condition (g : Grammar) : Parser Unit := do
  let _ ← g.expr false

def ifExpr (g : Grammar) : Parser Unit :=
  loop do
    word "if"
    condition g
    block g
    if ← take? (.word "else") then
      if ← ahead (.word "if") then return true
      else if ← ahead (.group .brace) then
        block g
        return false
      else expectedOneOf [.word "if", .group .brace]
    else return false

def whileExpr (g : Grammar) : Parser Unit := do
  word "while"
  condition g
  attributedBlock g

def forExpr (g : Grammar) : Parser Unit := do
  word "for"
  let _ ← alternatives g
  word "in"
  condition g
  attributedBlock g

def loopExpr (g : Grammar) : Parser Unit := do
  word "loop"
  attributedBlock g

/-- A loop or a block after its label. -/
def labeled (g : Grammar) : Parser Unit := do
  lifetime
  mark ":"
  if ← ahead (.word "while") then whileExpr g
  else if ← ahead (.word "for") then forExpr g
  else if ← ahead (.word "loop") then loopExpr g
  else if ← ahead (.group .brace) then attributedBlock g
  else failHere "expected loop or block expression"

/-- Whether a `for` introduces the parameters of a closure. -/
def closureForAhead : Parser Bool := do
  return (← ahead (.word "for")) && genericsFollow (pass (← trees))

/-- Arguments between parentheses. -/
def arguments (g : Grammar) : Parser Unit :=
  inside .parenthesis (terminated do
    let _ ← g.expr true)

/-- Two numbers with a point between them after another point, as in `x.0.1`: a float by its
spelling. It gives whether the last point has its number. -/
def floatIndex : Parser Bool := do
  match ← numberAhead with
  | some (text, size) =>
    if isFloat text then
      drop size
      let isOpen := text.endsWith "."
      let text := if isOpen then (text.dropEnd 1).toString else text
      for part in text.splitOn "." do fieldNumber part
      return !isOpen
    else return false
  | none => return false

/-- A field, a method with its arguments, or `await` after a point. -/
def memberAccess (g : Grammar) : Parser Unit := do
  unless ← floatIndex do
    unless ← take? (.word "await") do
      let named ← member
      if named && (← ahead (.mark "::")) then
        let _ ← angleArguments g
        arguments g
      else if named && (← ahead (.group .parenthesis)) then arguments g

/-- Calls, fields, indices and question marks after an operand. -/
def trailers (g : Grammar) : Nat → ExprShape → Parser ExprShape
  | 0, shape => return shape
  | fuel + 1, shape => do
    if ← ahead (.group .parenthesis) then
      arguments g
      trailers g fuel .other
    else if shape == .range then return shape
    else if (← ahead (.mark ".")) && !(← ahead (.mark "..")) then
      mark "."
      memberAccess g
      trailers g fuel .other
    else if ← ahead (.group .bracket) then
      inside .bracket do
        let _ ← g.expr true
      trailers g fuel .other
    else if ← take? (.mark "?") then trailers g fuel .other
    else return shape

/-- Calls, fields, indices and question marks after an operand. -/
def withTrailers (g : Grammar) (shape : ExprShape) : Parser ExprShape := do
  trailers g ((← remaining) + 1) shape

/-- One case of a choice. -/
def matchArm (g : Grammar) : Parser Unit := do
  let _ ← outerAttributes g
  let _ ← alternatives g
  if ← take? (.word "if") then
    let _ ← g.expr true
  mark "=>"
  let shape ← g.early
  if shape != .block && !(← atEnd) then mark ","
  else
    let _ ← take? (.mark ",")

def matchExpr (g : Grammar) : Parser Unit := do
  word "match"
  condition g
  inside .brace do
    innerAttributes g
    untilEnd (matchArm g)

/-- The expression that starts with a word or a brace and ends with a block, if one comes next. -/
def blockExpr? (g : Grammar) : Parser Bool := do
  if ← ahead (.word "if") then
    ifExpr g
    return true
  else if ← ahead (.word "while") then
    whileExpr g
    return true
  else if (← ahead (.word "for")) && !(← closureForAhead) then
    forExpr g
    return true
  else if ← ahead (.word "loop") then
    loopExpr g
    return true
  else if ← ahead (.word "match") then
    matchExpr g
    return true
  else if (← ahead (.word "try")) && (← ahead2 (.group .brace)) then
    word "try"
    block g
    return true
  else if ← take? (.word "unsafe") then
    attributedBlock g
    return true
  else if (← ahead (.word "const")) && (← ahead2 (.group .brace)) then
    word "const"
    attributedBlock g
    return true
  else if ← ahead (.group .brace) then
    attributedBlock g
    return true
  else if ← ahead .lifetime then
    labeled g
    return true
  else return false

/-- An expression that ends, if it starts with one, after a block. -/
def earlyExpr (g : Grammar) : Parser ExprShape := do
  let _ ← outerAttributes g
  let shape ← if ← blockExpr? g then pure .block else g.unary true
  if shape != .block then g.climb true Strength.least shape
  else if ((← ahead (.mark ".")) && !(← ahead (.mark ".."))) || (← ahead (.mark "?")) then
    let shape ← withTrailers g shape
    g.climb true Strength.least shape
  else return shape

/-! ### Operands -/

/-- A parameter of a closure. -/
def closureParameter (g : Grammar) : Parser Unit := do
  let _ ← outerAttributes g
  let _ ← g.pattern
  if ← take? (.mark ":") then
    let _ ← g.type true

def closure (g : Grammar) (allowStruct : Bool) : Parser Unit := do
  let _ ← boundLifetimes? g
  for w in ["const", "static", "async", "move"] do
    let _ ← take? (.word w)
  mark "|"
  separatedUntil (ahead (.mark "|")) "," (closureParameter g)
  mark "|"
  if ← take? (.mark "->") then
    let _ ← g.type true
    block g
  else
    let _ ← g.expr allowStruct

/-- The fields of a structure. -/
def structFields (g : Grammar) : Parser Unit :=
  inside .brace (loop do
    if ← atEnd then return false
    else if ← take? (.mark "..") then
      unless ← atEnd do
        let _ ← g.expr true
      return false
    else
      let _ ← outerAttributes g
      let named ← member
      if (← ahead (.mark ":")) || !named then
        mark ":"
        let _ ← g.expr true
      if ← atEnd then return false
      else
        mark ","
        return true)

/-- A path, the call of a macro, or a structure. -/
def pathExpr (g : Grammar) (allowStruct : Bool) : Parser ExprShape := do
  let p ← qualifiedPath g true
  if !p.isQualified && (← ahead (.mark "!")) && !(← ahead (.mark "!=")) && p.isPlain then
    mark "!"
    return .invocation (← anyGroup)
  else if allowStruct && (← ahead (.group .brace)) then
    structFields g
    return .other
  else return .other

/-- More expressions, each after a comma; a comma may end the list. -/
def commaExprs (g : Grammar) : Parser Unit :=
  loop do
    if ← atEnd then return false
    else
      mark ","
      if ← atEnd then return false
      else
        let _ ← g.expr true
        return true

/-- Expressions between parentheses. -/
def tupleExpr (g : Grammar) : Parser Unit :=
  inside .parenthesis do
    unless ← atEnd do
      let _ ← g.expr true
      commaExprs g

/-- Expressions between square brackets, or one with the number of its copies. -/
def arrayExpr (g : Grammar) : Parser Unit :=
  inside .bracket do
    unless ← atEnd do
      let _ ← g.expr true
      if (← atEnd) || (← ahead (.mark ",")) then commaExprs g
      else if ← take? (.mark ";") then
        let _ ← g.expr true
      else failHere "expected `,` or `;`"

/-- Whether a mark comes next that does not start one of the others. -/
def loneMark (text : String) (longer : List String) : Parser Bool := do
  return (← ahead (.mark text)) && !(← anyAhead (longer.map .mark))

/-- Whether an expression comes next. -/
def exprAhead : Parser Bool := do
  return ((← ahead .anyWord) && !(← ahead (.word "as"))) ||
    (← anyAhead [.group .parenthesis, .group .bracket, .group .brace, .literal, .mark "..", .mark "::",
      .lifetime, .mark "#"]) ||
    (← loneMark "!" ["!="]) || (← loneMark "-" ["-=", "->"]) || (← loneMark "*" ["*="]) ||
    (← loneMark "|" ["|="]) || (← loneMark "&" ["&="]) || (← loneMark "<" ["<=", "<<="])

/-- An expression, if one comes next. -/
def optionalExpr (g : Grammar) : Parser Unit := do
  if ← exprAhead then
    let _ ← g.expr true

def breakExpr (g : Grammar) (allowStruct : Bool) : Parser Unit := do
  word "break"
  if (← ahead .lifetime) && (← ahead2 (.mark ":")) then
    let _ ← g.expr true
    fail "parentheses required"
  else
    let _ ← take? .lifetime
    if (← exprAhead) && (allowStruct || !(← ahead (.group .brace))) then
      let _ ← g.expr allowStruct

def letExpr (g : Grammar) (allowStruct : Bool) : Parser Unit := do
  word "let"
  let _ ← alternatives g
  mark "="
  let left ← g.unary allowStruct
  let _ ← g.climb allowStruct Strength.compare left

/-- Whether a closure comes next. -/
def closureAhead : Parser Bool := do
  return (← anyAhead [.mark "|", .word "move", .word "static"]) || (← closureForAhead) ||
    ((← ahead (.word "const")) && !(← ahead2 (.group .brace))) ||
    ((← ahead (.word "async")) && ((← ahead2 (.mark "|")) || (← ahead2 (.word "move"))))

/-- An operand without what follows it. -/
def atom (g : Grammar) (allowStruct : Bool) : Parser ExprShape := do
  let plain : Parser Unit → Parser ExprShape := fun p => do
    p
    return .other
  if ← ahead .literal then literal
  else if (← ahead (.word "async")) && ((← ahead2 (.group .brace)) ||
      ((← ahead2 (.word "move")) && (← ahead3 (.group .brace)))) then plain do
    word "async"
    let _ ← take? (.word "move")
    block g
  else if ← closureAhead then plain (closure g allowStruct)
  else if (← ahead (.word "builtin")) && (← ahead2 (.mark "#")) then plain do
    word "builtin"
    mark "#"
    let _ ← name
    unless ← ahead (.group .parenthesis) do failHere "expected parentheses"
    drop 1
  else if (← anyAhead [.name, .mark "::", .mark "<", .word "self", .word "Self", .word "super",
      .word "crate"]) ||
      ((← ahead (.word "try")) && ((← ahead2 (.mark "!")) || (← ahead2 (.mark "::")))) then
    pathExpr g allowStruct
  else if ← ahead (.group .parenthesis) then plain (tupleExpr g)
  else if ← ahead (.word "break") then plain (breakExpr g allowStruct)
  else if ← take? (.word "continue") then plain do
    let _ ← take? .lifetime
  else if ← take? (.word "return") then plain (optionalExpr g)
  else if ← take? (.word "become") then
    keepIf do
      let _ ← g.expr true
      return false
    return .other
  else if ← ahead (.group .bracket) then plain (arrayExpr g)
  else if ← ahead (.word "let") then plain (letExpr g allowStruct)
  else if ← take? (.word "yield") then plain (optionalExpr g)
  else if ← blockExpr? g then return .block
  else if ← ahead (.mark "..") then
    rangeExpr g allowStruct
    return .range
  else if ← take? (.word "_") then return .other
  else failHere "expected an expression"

/-- An expression without operators between operands. -/
def unary (g : Grammar) (allowStruct : Bool) : Parser ExprShape := do
  let hasAttributes ← outerAttributes g
  if ← take? (.mark "&") then
    if (← ahead (.word "raw")) && ((← ahead2 (.word "mut")) || (← ahead2 (.word "const"))) then
      word "raw"
      unless ← take? (.word "mut") do word "const"
    else
      let _ ← take? (.word "mut")
    let _ ← g.unary allowStruct
    return .other
  else if ← anyAhead [.mark "*", .mark "!", .mark "-"] then
    drop 1
    let _ ← g.unary allowStruct
    return .other
  else
    let shape ← atom g allowStruct
    let shape ← withTrailers g shape
    if hasAttributes && shape == .range then
      fail "attributes are not allowed on range expressions starting with `..`"
    else return shape

end Parser

end SqlLayout.Host
