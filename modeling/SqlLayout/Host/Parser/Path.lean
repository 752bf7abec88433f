import SqlLayout.Host.Parser.Attribute

/-!
Paths, and the arguments of their segments.
-/

namespace SqlLayout.Host

/-- What is known of a path that has been read. -/
structure PathShape where
  /-- The path starts with a type in angle brackets. -/
  isQualified : Bool := false
  isRooted : Bool := false
  isSingle : Bool := true
  /-- No segment has arguments. -/
  isPlain : Bool := true
  /-- The last segment has no arguments, so that parentheses may follow. -/
  isOpen : Bool := true
  isParenthesized : Bool := false
  deriving DecidableEq, Repr, Inhabited

/-- The arguments of a segment: no angle brackets, an empty pair of them, or some arguments. -/
inductive Arguments
  | absent
  | empty
  | present
  deriving DecidableEq, Repr, Inhabited

/-- One more segment. -/
def PathShape.push (p : PathShape) (arguments : Arguments) : PathShape :=
  { p with
    isSingle := false
    isPlain := p.isPlain && arguments == .absent
    isOpen := arguments != .present }

namespace Parser

/-- A value in the place of a type argument. -/
def constArgument (g : Grammar) : Parser Unit := do
  if ← ahead .literal then
    let _ ← literal
  else if ← ahead .name then
    let _ ← name
  else if ← ahead (.group .brace) then attributedBlock g
  else expectedOneOf []

/-- One argument between angle brackets. -/
def genericArgument (g : Grammar) : Parser Unit := do
  if (← ahead .lifetime) && !(← ahead2 (.mark "+")) then lifetime
  else if ← anyAhead [.literal, .group .brace] then constArgument g
  else
    let shape ← g.type true
    if shape == .segment then
      if ← take? (.mark "=") then
        if ← anyAhead [.literal, .group .brace] then constArgument g
        else
          let _ ← g.type true
      else if ← take? (.mark ":") then 
        separatedWhile (anyAhead [.mark ",", .mark ">"]) "+" g.bound

/-- Arguments between angle brackets. -/
def angleArguments (g : Grammar) : Parser Arguments := do
  let _ ← take? (.mark "::")
  mark "<"
  let isEmpty ← ahead (.mark ">")
  separatedUntil (ahead (.mark ">")) "," (genericArgument g)
  mark ">"
  return if isEmpty then .empty else .present

/-- A segment of a path. In an expression arguments need a `::` before them. -/
def segment (g : Grammar) (inExpr : Bool) : Parser Arguments := do
  if ← anyAhead [.word "super", .word "self", .word "crate", .word "try"] then
    let _ ← anyWord
    return .absent
  else
    unless ← take? (.word "Self") do
      let _ ← name
    let opens := (← ahead (.mark "<")) && !(← anyAhead [.mark "<=", .mark "<<="])
    if (!inExpr && opens) || ((← ahead (.mark "::")) && (← ahead3 (.mark "<"))) then
      angleArguments g
    else return .absent

/-- More segments; a `::` before parentheses is left. -/
def moreSegments (g : Grammar) (inExpr : Bool) :
    Nat → PathShape → Parser PathShape
  | 0, p => return p
  | fuel + 1, p => do
    if (← ahead (.mark "::")) && !(← ahead3 (.group .parenthesis)) then
      mark "::"
      moreSegments g inExpr fuel (p.push (← segment g inExpr))
    else return p

/-- A path. -/
def path (g : Grammar) (inExpr : Bool) : Parser PathShape := do
  let isRooted ← take? (.mark "::")
  let arguments ← segment g inExpr
  let first : PathShape :=
    { isRooted, isPlain := arguments == .absent, isOpen := arguments != .present }
  moreSegments g inExpr (← remaining) first

/-- The segments after a qualified type. -/
def qualifiedSegments (g : Grammar) (inExpr : Bool) :
    Nat → PathShape → Parser PathShape
  | 0, p => return p
  | fuel + 1, p => do
    let p := p.push (← segment g inExpr)
    if ← take? (.mark "::") then qualifiedSegments g inExpr fuel p else return p

/-- A path that may start with a type in angle brackets. -/
def qualifiedPath (g : Grammar) (inExpr : Bool) : Parser PathShape := do
  if ← take? (.mark "<") then
    let _ ← g.type true
    if ← take? (.word "as") then
      let _ ← path g false
    mark ">"
    mark "::"
    qualifiedSegments g inExpr ((← remaining) + 1) { isQualified := true, isPlain := false }
  else path g inExpr

end Parser

end SqlLayout.Host
