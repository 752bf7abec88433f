import SqlLayout.Host.Parser.Expr

/-!
Statements of a block.
-/

namespace SqlLayout.Host.Parser

/-- Whether a phrase ends with a brace. -/
def endsWithBrace (p : Parser Unit) : Parser Bool := do
  let before ← trees
  p
  let taken := before.length - (← remaining)
  match before[taken - 1]? with
  | some (.group .brace _) => return true
  | _ => return false

/-- The declaration of a variable. -/
def letStatement (g : Grammar) : Parser Unit := do
  word "let"
  let _ ← g.pattern
  if ← take? (.mark ":") then
    let _ ← g.type true
  if ← take? (.mark "=") then
    let braced ← endsWithBrace do
      let _ ← g.expr true
    if !braced && (← ahead (.word "else")) then
      word "else"
      block g
  mark ";"

/-- Whether an item starts with `static` or `const` here, and not a closure or a block. -/
def valueItemAhead : Parser Bool := do
  let isStatic := (← ahead (.word "static")) &&
    ((← ahead2 (.word "mut")) || (← ahead2 .name))
  let closureFollows := (← ahead2 (.group .brace)) || (← ahead2 (.word "static")) ||
    ((← ahead2 (.word "async")) &&
      !((← ahead3 (.word "unsafe")) || (← ahead3 (.word "extern")) || (← ahead3 (.word "fn")))) ||
    (← ahead2 (.word "move")) || (← ahead2 (.mark "|"))
  return isStatic || ((← ahead (.word "const")) && !closureFollows)

/-- Whether an item comes next. -/
def itemAhead : Parser Bool := do
  return (← anyAhead [.word "pub", .word "extern", .word "use", .word "fn", .word "mod", .word "type",
      .word "struct", .word "enum", .word "trait", .word "impl", .word "macro"]) ||
    ((← ahead (.word "crate")) && !(← ahead2 (.mark "::"))) ||
    (← valueItemAhead) ||
    ((← ahead (.word "unsafe")) && !(← ahead2 (.group .brace))) ||
    ((← ahead (.word "async")) && ((← ahead2 (.word "unsafe")) || (← ahead2 (.word "extern")) ||
      (← ahead2 (.word "fn")))) ||
    ((← ahead (.word "union")) && (← ahead2 .name)) ||
    ((← ahead (.word "auto")) && (← ahead2 (.word "trait"))) ||
    ((← ahead (.word "default")) && ((← ahead2 (.word "unsafe")) || (← ahead2 (.word "impl"))))

/-- How a macro is called in the place of a statement. -/
inductive MacroUse
  /-- The call defines an item: a name stands after the exclamation mark. -/
  | item
  /-- The call is a statement of its own, in braces. -/
  | statement
  | none
  deriving DecidableEq

/-- How the path that comes next, if it is one, calls a macro. -/
def macroAhead : Parser MacroUse := do
  let (path, rest) ← lookPast (attempt plainPath)
  if path.isNone || !(Ahead.mark "!").holds rest then return .none
  else
    let second := pass rest
    let third := pass second
    if Ahead.name.holds second || (Ahead.word "try").holds second then return .item
    else if (Ahead.group .brace).holds second &&
        !(((Ahead.mark ".").holds third && !(Ahead.mark "..").holds third) ||
          (Ahead.mark "?").holds third) then return .statement
    else return .none

/-- A statement. It gives whether no other statement may follow directly. -/
def statement (g : Grammar) : Parser Bool := do
  let before := (← get).found
  let _ ← outerAttributes g
  let use ← macroAhead
  if use == .statement then
    plainPath
    mark "!"
    let _ ← anyGroup
    let _ ← take? (.mark ";")
    return false
  else if ← ahead (.word "let") then
    letStatement g
    return false
  else if use == .item || (← itemAhead) then
    unless ← g.item do modify fun s => { s with found := before }
    return false
  else
    let shape ← g.early
    if ← take? (.mark ";") then return false
    else return shape != .block && shape != .invocation .brace

/-- The statements of a block up to its end. -/
def statements (g : Grammar) : Parser Unit :=
  loop do
    loop (take? (.mark ";"))
    if ← atEnd then return false
    else
      let unfinished ← statement g
      if ← atEnd then return false
      else if unfinished then failHere "unexpected token, expected `;`"
      else return true

end SqlLayout.Host.Parser
