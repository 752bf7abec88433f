import SqlLayout.Host.Parser.Type

/-!
Patterns.
-/

namespace SqlLayout.Host.Parser

/-- The number of a field: a whole number without a word after it, of at most 32 bits. -/
def fieldNumber (text : String) : Parser Unit := do
  let isNegative := text.startsWith "-"
  let number := if isNegative then (text.drop 1).toString else text
  if !isInteger number then fail "expected integer literal"
  else
    let (value, suffix) := integerParts number
    if suffix != "" then fail "expected unsuffixed integer"
    else if isNegative then fail "invalid digit found in string"
    else if UInt32.size ≤ value then fail "number too large to fit in target type"

/-- The number that comes next, maybe after a minus, and how many trees it takes. -/
def numberAhead : Parser (Option (String × Nat)) := do
  match ← trees with
  | .literal text _ _ :: _ => return if isNumber text then some (text, 1) else none
  | .mark '-' _ :: .literal text _ _ :: _ => return if isNumber text then some ("-" ++ text, 2) else none
  | _ => return none

/-- A field by its name or its number. It gives whether it is a name. -/
def member : Parser Bool := do
  if ← ahead .name then
    let _ ← name
    return true
  else
    match ← numberAhead with
    | some (text, size) =>
      if isFloat text then failHere "expected identifier or integer"
      else
        drop size
        fieldNumber text
        return false
    | none => failHere "expected identifier or integer"

/-- The marks of a range. It gives whether the range is closed. Three points stand for a closed range
in a pattern that starts with a bound. -/
def rangeLimits (allowThree : Bool) : Parser Bool := do
  if ← take? (.mark "..=") then return true
  else if ← ahead (.mark "...") then
    if allowThree then
      mark "..."
      return true
    else expectedOneOf [.mark "..", .mark "..="]
  else if ← take? (.mark "..") then return false
  else expectedOneOf [.mark ".."]

/-- A bound of a range, if one comes next. -/
def rangeBound (g : Grammar) : Parser Bool := do
  if (← atEnd) || (← anyAhead [.mark "|", .mark "=", .mark ",", .mark ";", .word "if"]) ||
      ((← ahead (.mark ":")) && !(← ahead (.mark "::"))) then return false
  else
    if ← ahead .literal then
      let _ ← literal
    else if ← anyAhead [.name, .mark "::", .mark "<", .word "self", .word "Self", .word "super",
        .word "crate"] then
      let _ ← qualifiedPath g true
    else if ← take? (.word "const") then attributedBlock g
    else
      expectedOneOf [.literal, .name, .mark "::", .mark "<", .word "self", .word "Self", .word "super",
        .word "crate", .word "const"]
    return true

/-- The rest of a range after its first bound. -/
def rangeRest (g : Grammar) : Parser PatternShape := do
  let closed ← rangeLimits true
  let bounded ← rangeBound g
  if closed && !bounded then failHere "expected range upper bound"
  else return if bounded then .other else .openRange

/-- Patterns with `|` between them, maybe with one in front. -/
def alternatives (g : Grammar) : Parser PatternShape := do
  let leading ← take? (.mark "|")
  let first ← g.pattern
  let barAhead : Parser Bool := do
    return (← ahead (.mark "|")) && !(← anyAhead [.mark "||", .mark "|="])
  if leading || (← barAhead) then
    loop do
      if ← barAhead then
        mark "|"
        let _ ← g.pattern
        return true
      else return false
    return .other
  else return first

/-- A field of a structure pattern after its attributes. -/
def fieldPattern (g : Grammar) : Parser Bool := do
  let boxed ← take? (.word "box")
  let byReference ← take? (.word "ref")
  let mutable ← take? (.word "mut")
  let marked := boxed || byReference || mutable
  let named ← if marked then do
      let _ ← name
      pure true
    else member
  if (!marked && (← ahead (.mark ":"))) || !named then
    mark ":"
    let _ ← alternatives g
  return !boxed

/-- The fields of a structure pattern. -/
def structPattern (g : Grammar) : Parser Unit :=
  inside .brace (loop do
    if ← atEnd then return false
    else
      let _ ← outerAttributes g
      if ← take? (.mark "..") then return false
      else
        keepIf (fieldPattern g)
        if ← atEnd then return false
        else
          mark ","
          return true)

/-- A pattern that starts with a path. -/
def pathPattern (g : Grammar) : Parser PatternShape := do
  let p ← qualifiedPath g true
  if !p.isQualified && (← ahead (.mark "!")) && !(← ahead (.mark "!=")) && p.isPlain then
    mark "!"
    let _ ← anyGroup
    return .other
  else if ← ahead (.group .brace) then
    structPattern g
    return .other
  else if ← ahead (.group .parenthesis) then
    inside .parenthesis (terminated do
      let _ ← alternatives g)
    return .other
  else if ← ahead (.mark "..") then rangeRest g
  else return .other

/-- A pattern that binds a name. -/
def namePattern (g : Grammar) : Parser Unit := do
  let _ ← take? (.word "ref")
  let _ ← take? (.word "mut")
  unless ← take? (.word "self") do
    let _ ← name
  if ← take? (.mark "@") then
    let _ ← g.pattern

/-- Patterns between square brackets. -/
def slicePattern (g : Grammar) : Parser Unit :=
  inside .bracket (terminated do
    if (← alternatives g) == .openRange then
      fail "range pattern is not allowed unparenthesized inside slice pattern")

/-- A pattern without alternatives. -/
def pattern (g : Grammar) : Parser PatternShape := do
  let startsPath ← do
    let follows := pass (← trees)
    let followed := [Ahead.mark "::", .mark "!", .group .brace, .group .parenthesis, .mark ".."].any
      (·.holds follows)
    pure (((← ahead .name) && followed) ||
      ((← ahead (.word "self")) && (Ahead.mark "::").holds follows))
  if startsPath || (← anyAhead [.mark "::", .mark "<", .word "Self", .word "super", .word "crate"]) then
    pathPattern g
  else if ← take? (.word "_") then return .other
  else if ← take? (.word "box") then
    keepIf do
      let _ ← g.pattern
      return false
    return .other
  else if ← anyAhead [.mark "-", .literal, .word "const"] then
    let _ ← rangeBound g
    if ← ahead (.mark "..") then rangeRest g else return .other
  else if ← anyAhead [.word "ref", .word "mut", .word "self", .name] then
    namePattern g
    return .other
  else if ← take? (.mark "&") then
    let _ ← take? (.word "mut")
    let _ ← g.pattern
    return .other
  else if ← ahead (.group .parenthesis) then
    inside .parenthesis (terminated do
      let _ ← alternatives g)
    return .other
  else if ← ahead (.group .bracket) then
    slicePattern g
    return .other
  else if (← ahead (.mark "..")) && !(← ahead (.mark "...")) then
    let closed ← rangeLimits false
    if ← rangeBound g then return .openRange
    else if closed then failHere "expected range upper bound"
    else return .other
  else
    expectedOneOf [.name, .mark "::", .mark "<", .word "_", .literal, .word "const", .word "ref",
      .word "mut", .mark "&", .group .parenthesis, .group .bracket, .mark "..", .word "const"]

end SqlLayout.Host.Parser
