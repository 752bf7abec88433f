import SqlLayout.Host.Parser.Path

/-!
Types, the bounds of types, and generic parameters.
-/

namespace SqlLayout.Host.Parser

/-! ### Parameters -/

/-- Lifetimes with `+` between them. -/
def lifetimeBounds (stop : Parser Bool) : Parser Unit :=
  separatedWhile stop "+" lifetime

/-- A lifetime parameter after its attributes. -/
def lifetimeParameter : Parser Unit := do
  lifetime
  if ← take? (.mark ":") then lifetimeBounds (anyAhead [.mark ",", .mark ">"])

/-- A type parameter after its attributes. -/
def typeParameter (g : Grammar) : Parser Unit := do
  let _ ← name
  if ← take? (.mark ":") then
    separatedWhile (anyAhead [.mark ",", .mark ">", .mark "="]) "+" g.bound
  if ← take? (.mark "=") then
    let _ ← g.type true

/-- A value parameter after its attributes. -/
def constParameter (g : Grammar) : Parser Unit := do
  word "const"
  let _ ← name
  mark ":"
  let _ ← g.type true
  if ← take? (.mark "=") then constArgument g

/-- The lifetimes that a `for` introduces. -/
def boundLifetimes (g : Grammar) : Parser Unit := do
  word "for"
  mark "<"
  separatedUntil (ahead (.mark ">")) "," do
    let _ ← outerAttributes g
    if ← ahead .name then typeParameter g
    else if ← ahead .lifetime then lifetimeParameter
    else if ← ahead (.word "const") then constParameter g
    else expectedOneOf [.name, .lifetime, .word "const"]
  mark ">"

/-- The lifetimes that a `for` introduces, if there is one. -/
def boundLifetimes? (g : Grammar) : Parser Bool := do
  if ← ahead (.word "for") then
    boundLifetimes g
    return true
  else return false

/-- Parameters between angle brackets, if there are any. -/
def generics (g : Grammar) : Parser Bool := do
  if ← take? (.mark "<") then
    separatedUntil (ahead (.mark ">")) "," do
      let _ ← outerAttributes g
      if ← ahead .lifetime then lifetimeParameter
      else if ← ahead .name then typeParameter g
      else if ← ahead (.word "const") then constParameter g
      else if ← ahead (.word "_") then
        let _ ← anyWord
      else expectedOneOf [.lifetime, .name, .word "const"]
    mark ">"
    return true
  else return false

/-- Whether angle brackets hold parameters, and not the type that starts a qualified path. -/
def genericsFollow (ts : List Tree) : Bool :=
  let second := pass ts
  let third := pass second
  let ends := [Ahead.mark ">", .mark ",", .mark "="].any (·.holds third) ||
    ((Ahead.mark ":").holds third && !(Ahead.mark "::").holds third)
  (Ahead.mark "<").holds ts &&
    ([Ahead.mark ">", .mark "#", .word "const"].any (·.holds second) ||
      ([Ahead.lifetime, .name].any (·.holds second) && ends))

/-- Whether parameters between angle brackets come next. -/
def genericsAhead : Parser Bool := do
  return genericsFollow (← trees)

/-- Where a list of conditions ends. -/
def conditionsEnd : Parser Bool := do
  return (← atEnd) || (← anyAhead [.group .brace, .mark ",", .mark ";", .mark "="]) ||
    ((← ahead (.mark ":")) && !(← ahead (.mark "::")))

/-- The conditions on parameters, if there are any. -/
def whereClause (g : Grammar) : Parser Bool := do
  if ← take? (.word "where") then
    if ← genericsAhead then
      failHere "generic parameters on `where` clauses are reserved for future use"
    separatedWhile conditionsEnd "," do
      if (← ahead .lifetime) && (← ahead2 (.mark ":")) then
        lifetime
        mark ":"
        lifetimeBounds do return (← ahead (.mark ":")) || (← conditionsEnd)
      else
        let _ ← boundLifetimes? g
        let _ ← g.type true
        mark ":"
        separatedWhile conditionsEnd "+" g.bound
    return true
  else return false

/-! ### Bounds -/

/-- Types between parentheses and a result. It gives whether a name may follow the result. -/
def parenthesizedArguments (g : Grammar) : Parser Bool := do
  let _ ← take? (.mark "::")
  inside .parenthesis (terminated do
    let _ ← g.type true)
  if ← take? (.mark "->") then return (← g.type false) == .parenthesized
  else return true

/-- Whether parentheses follow a path, maybe after a `::`. -/
def parenthesesAhead : Parser Bool := do
  return (← ahead (.group .parenthesis)) ||
    ((← ahead (.mark "::")) && (← ahead3 (.group .parenthesis)))

/-- The word `const` before a bound, alone or in square brackets. It gives whether it is there. -/
def constMarker (allowConst : Bool) : Parser Bool := do
  if ← ahead (.group .bracket) then
    inside .bracket (word "const")
    if allowConst then return true else fail "`[const]` is not allowed here"
  else if ← take? (.word "const") then
    if allowConst then return true else fail "`const` is not allowed here"
  else return false

/-- A trait as a bound. It gives whether it counts. -/
def traitBound (g : Grammar) (allowConst : Bool) : Parser Bool := do
  let hasLifetimes ← boundLifetimes? g
  let isConst ← constMarker allowConst
  let isMaybe ← take? (.mark "?")
  let hasLifetimes ← if isMaybe && !hasLifetimes then boundLifetimes? g else pure hasLifetimes
  let p ← path g false
  if p.isOpen && (← parenthesesAhead) then
    let _ ← parenthesizedArguments g
  if hasLifetimes && isMaybe then
    fail "`for<...>` binder not allowed with `?` trait polarity modifier"
  else return !isConst

/-- The lifetimes and parameters that a type captures. -/
def captures : Parser Unit := do
  word "use"
  mark "<"
  loop do
    if ← anyAhead [.lifetime, .name, .word "Self"] then
      drop (if ← ahead .lifetime then 2 else 1)
      if ← take? (.mark ",") then return true
      else if ← ahead (.mark ">") then return false
      else expectedOneOf [.mark ",", .mark ">"]
    else if ← ahead (.mark ">") then return false
    else expectedOneOf [.lifetime, .name, .mark ">"]
  mark ">"

/-- The kinds of bounds that a type may have. -/
inductive BoundKind
  | lifetime
  | trait
  | other
  deriving DecidableEq

/-- A bound. -/
def bound (g : Grammar) (allowCaptures allowConst : Bool) : Parser BoundKind := do
  if ← take? .lifetime then return .lifetime
  else if ← ahead (.word "use") then
    captures
    if allowCaptures then return .other
    else fail "`use<...>` precise capturing syntax is not allowed here"
  else
    keepIf do
      if ← ahead (.group .parenthesis) then inside .parenthesis (traitBound g allowConst)
      else traitBound g allowConst
    return .trait

/-- Whether a bound comes next. -/
def boundAhead (allowConst : Bool) : Parser Bool :=
  anyAhead ([.anyWord, .mark "::", .mark "?", .lifetime, .group .parenthesis] ++
    if allowConst then [.group .bracket] else [])

/-- Bounds with `+` between them; more than one only if the flag is set. -/
def bounds (g : Grammar) (allowPlus allowCaptures allowConst : Bool) : Nat → Parser (List BoundKind)
  | 0 => return []
  | fuel + 1 => do
    let first ← bound g allowCaptures allowConst
    if !allowPlus then return [first]
    else if ← take? (.mark "+") then
      if ← boundAhead allowConst then return first :: (← bounds g allowPlus allowCaptures allowConst fuel)
      else return [first]
    else return [first]

/-- Bounds of which at least one is a trait. -/
def objectBounds (g : Grammar) (allowPlus : Bool) : Parser Unit := do
  let kinds ← bounds g allowPlus false false ((← remaining) + 1)
  unless kinds.contains .trait do fail "at least one trait is required for an object type"

/-- More bounds after `+`. -/
def plusBounds (g : Grammar) : Parser Unit :=
  loop do
    if ← take? (.mark "+") then
      let _ ← bound g false false
      return true
    else return false

/-! ### Types -/

/-- The parentheses that may follow a path in a type. -/
def typeArguments (g : Grammar) : Nat → PathShape → Parser PathShape
  | 0, p => return p
  | fuel + 1, p => do
    if p.isOpen && (← parenthesesAhead) then
      let mayContinue ← parenthesizedArguments g
      let p := { p with isPlain := false, isOpen := false, isParenthesized := true }
      if mayContinue then
        typeArguments g fuel (← moreSegments g false (← remaining) p)
      else return p
    else return p

/-- A path as a type, the call of a macro, or bounds that start with a path. -/
def pathType (g : Grammar) (allowPlus hasLifetimes : Bool) : Parser TypeShape := do
  let p ← typeArguments g (← remaining) (← qualifiedPath g false)
  if p.isQualified then return .other
  else if (← ahead (.mark "!")) && !(← ahead (.mark "!=")) && p.isPlain then
    mark "!"
    let _ ← anyGroup
    return .other
  else if hasLifetimes || (allowPlus && (← ahead (.mark "+"))) then
    if allowPlus && (← ahead (.mark "+")) then
      loop do
        if ← take? (.mark "+") then
          if ← boundAhead false then
            let _ ← bound g false false
            return true
          else return false
        else return false
      return .other
    else return .bound
  else if p.isSingle && !p.isRooted && !p.isParenthesized then return .segment
  else return .path

/-- What stands between the parentheses of a type. -/
inductive TypeContent
  | tuple
  /-- A bound that is no type by itself. -/
  | bound
  /-- One type; whether it may be a bound too. -/
  | single (mayBeBound : Bool)

/-- The contents of parentheses in a type. -/
def typeContent (g : Grammar) : Parser TypeContent := do
  if ← atEnd then return .tuple
  else if ← ahead .lifetime then
    objectBounds g true
    return .single false
  else if ← ahead (.mark "?") then
    let _ ← traitBound g false
    return .bound
  else
    let first ← g.type true
    if ← take? (.mark ",") then
      terminated do
        let _ ← g.type true
      return .tuple
    else return .single (first.isPath || first == .bound)

/-- A type in parentheses, a tuple, or bounds that start with one in parentheses. -/
def parenthesizedType (g : Grammar) (allowPlus : Bool) : Parser TypeShape := do
  let content ← inside .parenthesis (typeContent g)
  let more ← ahead (.mark "+")
  match content with
  | .tuple => return .other
  | .bound =>
    plusBounds g
    return if more then .other else .bound
  | .single mayBeBound =>
    if mayBeBound && allowPlus && more then
      plusBounds g
      return .other
    else return .parenthesized

/-- A parameter of a function type. It gives whether it counts: a parameter that stands for the
value itself and may be changed does not. -/
def functionTypeParameter (g : Grammar) (allowSelf : Bool) : Parser Bool := do
  let mutSelfAhead : Parser Bool := do
    return allowSelf && (← ahead (.word "mut")) && (← ahead2 (.word "self"))
  let isMutSelf ← mutSelfAhead
  if isMutSelf then word "mut"
  let isSelf := allowSelf && (← ahead (.word "self"))
  let named := ((← anyAhead [.name, .word "_"]) || isSelf) && (← ahead2 (.mark ":")) &&
    !(← ahead2 (.mark "::"))
  if named then
    let _ ← anyWord
    mark ":"
  if !(isSelf && named) && (← mutSelfAhead) then
    word "mut"
    word "self"
    return false
  else if isMutSelf && !named then
    word "self"
    return false
  else
    let _ ← g.type true
    return !isMutSelf

/-- The parameters of a function type up to the end, of which the first one may stand for the value
itself. -/
def functionTypeParameters (g : Grammar) : Nat → Bool → Parser Unit
  | 0, _ => return
  | fuel + 1, isFirst => do
    unless ← atEnd do
      let _ ← outerAttributes g
      let named ← anyAhead [.name, .word "_"]
      if (← ahead (.mark "...")) ||
          (named && (← ahead2 (.mark ":")) && (← ahead3 (.mark "..."))) then
        if named then drop 2
        mark "..."
        let _ ← take? (.mark ",")
      else
        keepIf (functionTypeParameter g isFirst)
        unless ← atEnd do
          mark ","
          functionTypeParameters g fuel false

/-- A function type. -/
def functionType (g : Grammar) : Parser Unit := do
  let _ ← take? (.word "unsafe")
  if ← take? (.word "extern") then
    let _ ← take? .text
  word "fn"
  inside .parenthesis do functionTypeParameters g ((← remaining) + 1) true
  if ← take? (.mark "->") then
    let _ ← g.type false

/-- A type. -/
def type (g : Grammar) (allowPlus : Bool) : Parser TypeShape := do
  let hasLifetimes ← boundLifetimes? g
  let starts : List Ahead := [.name, .word "fn", .word "unsafe", .word "extern", .word "super",
    .word "self", .word "Self", .word "crate"]
  if hasLifetimes && (!(← anyAhead starts) || (← ahead (.word "dyn"))) then expectedOneOf starts
  else if ← ahead (.group .parenthesis) then parenthesizedType g allowPlus
  else if ← anyAhead [.word "fn", .word "unsafe", .word "extern"] then
    functionType g
    return .other
  else if ← anyAhead [.name, .word "super", .word "self", .word "Self", .word "crate", .mark "::",
      .mark "<"] then
    pathType g allowPlus hasLifetimes
  else if ← take? (.word "dyn") then
    let dropped ← take? (.mark "*")
    keepIf do
      objectBounds g allowPlus
      return !dropped
    return .other
  else if ← ahead (.group .bracket) then
    inside .bracket do
      let _ ← g.type true
      if ← take? (.mark ";") then
        let _ ← g.expr true
    return .other
  else if ← take? (.mark "*") then
    unless ← take? (.word "const") do
      unless ← take? (.word "mut") do expectedOneOf [.word "const", .word "mut"]
    let _ ← g.type false
    return .other
  else if ← take? (.mark "&") then
    let _ ← take? .lifetime
    let _ ← take? (.word "mut")
    let _ ← g.type false
    return .other
  else if (← ahead (.mark "!")) && !(← ahead (.mark "=")) then
    mark "!"
    return .other
  else if ← take? (.word "impl") then
    let kinds ← bounds g allowPlus true true ((← remaining) + 1)
    unless kinds.contains .trait do fail "at least one trait must be specified"
    return .other
  else if ← take? (.word "_") then return .other
  else if ← ahead .lifetime then
    objectBounds g true
    return .other
  else
    expectedOneOf [.word "for", .group .parenthesis, .word "fn", .word "unsafe", .word "extern", .name,
      .mark "::", .mark "<", .word "dyn", .group .bracket, .mark "*", .mark "&", .mark "!",
      .word "impl", .word "_", .lifetime]

end SqlLayout.Host.Parser
