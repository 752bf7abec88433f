import SqlLayout.Host.Parser.Grammar

/-!
Attributes, literals and blocks.
-/

namespace SqlLayout.Host.Parser

/-- A path whose segments are words only. -/
def plainPath : Parser Unit := do
  let _ ← take? (.mark "::")
  let segment : List Ahead := [.name, .word "super", .word "self", .word "Self", .word "crate"]
  unless ← anyAhead segment do
    let _ ← name
  loop do
    if ← anyAhead segment then
      let _ ← anyWord
      if ← take? (.mark "::") then
        if ← anyAhead segment then return true
        else failHere "expected path segment after `::`"
      else return false
    else return false

/-- A literal; a minus may stand in front of a number. -/
def literal : Parser ExprShape := do
  match ← trees with
  | .literal text start stop :: _ =>
    drop 1
    return if isText text then .text (textOf text) start stop else .other
  | ts =>
    if Ahead.literal.holds ts then
      drop (if (Ahead.mark "-").holds ts then 2 else 1)
      return .other
    else failHere "expected literal"

/-- The contents of an attribute. -/
def attributeBody (g : Grammar) : Parser Unit := do
  unless ← take? (.word "unsafe") do plainPath
  match ← trees with
  | .group _ _ :: _ => drop 1
  | _ =>
    if ← take? (.mark "=") then
      let (_, rest) ← lookPast (attempt literal)
      if (← ahead .literal) && rest.isEmpty then
        let _ ← literal
      else if (← ahead (.mark "#")) && (← ahead2 (.group .bracket)) then
        failHere "unexpected attribute inside of attribute"
      else
        let _ ← g.expr true

/-- Attributes of what follows. It gives whether there is one. -/
def outerAttributes (g : Grammar) : Parser Bool := do
  let any ← ahead (.mark "#")
  loop do
    if ← take? (.mark "#") then
      inside .bracket (attributeBody g)
      return true
    else return false
  return any

/-- Attributes of what is around. -/
def innerAttributes (g : Grammar) : Parser Unit :=
  loop do
    if (← ahead (.mark "#")) && (← ahead2 (.mark "!")) then
      drop 2
      inside .bracket (attributeBody g)
      return true
    else return false

/-- A block. -/
def block (g : Grammar) : Parser Unit :=
  inside .brace g.statements

/-- A block that may start with attributes. -/
def attributedBlock (g : Grammar) : Parser Unit :=
  inside .brace do
    innerAttributes g
    g.statements

end SqlLayout.Host.Parser
