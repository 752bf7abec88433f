import SqlLayout.Host.Parser.Statement

/-!
Items: functions, types, modules, implementations and constants. An item that is read as far as its
tokens go but has no meaning of its own, such as a function without a body outside a trait, does not
count: the constants in it are not found.
-/

namespace SqlLayout.Host.Parser

/-! ### Parts of items -/

/-- The visibility in front of an item. It gives whether one is written. -/
def visibility : Parser Bool := do
  if ← take? (.word "pub") then
    match ← trees with
    | .group .parenthesis inner :: _ =>
      if [Ahead.word "crate", .word "self", .word "super"].any (·.holds inner) then
        if inner.length == 1 then drop 1
      else if (Ahead.word "in").holds inner then
        inside .parenthesis do
          word "in"
          plainPath
    | _ => pure ()
    return true
  else return false

/-- Whether a function comes next, with any words in front of it. -/
def functionAhead (allowSafe : Bool) (ts : List Tree) : Bool :=
  let skip (t : Ahead) (ts : List Tree) := if t.holds ts then ts.drop 1 else ts
  let ts := skip (.word "async") (skip (.word "const") ts)
  let ts := if allowSafe && (Ahead.word "safe").holds ts then ts.drop 1 else skip (.word "unsafe") ts
  let ts := if (Ahead.word "extern").holds ts then skip .text (ts.drop 1) else ts
  (Ahead.word "fn").holds ts

/-- The name of a calling convention. -/
def callingConvention : Parser Unit := do
  word "extern"
  let _ ← take? .text

/-- A parameter that stands for the value itself. -/
def receiver (g : Grammar) : Parser Unit := do
  let byReference ← take? (.mark "&")
  if byReference then
    let _ ← take? .lifetime
  let _ ← take? (.word "mut")
  word "self"
  if !byReference && (← ahead (.mark ":")) then
    mark ":"
    let _ ← g.type true

/-- The kinds of parameters. -/
inductive Parameter
  | receiver
  | typed
  | variadic
  deriving DecidableEq

/-- A parameter after its attributes. -/
def parameter (g : Grammar) : Parser Parameter := do
  if ← take? (.mark "...") then return .variadic
  else if (← attempt (receiver g)).isSome then return .receiver
  else if (← ahead .name) && (← ahead2 (.mark "<")) then
    let _ ← g.type true
    return .typed
  else
    let _ ← g.pattern
    mark ":"
    if ← take? (.mark "...") then return .variadic
    else
      let _ ← g.type true
      return .typed

/-- Parameters up to the end; `before` holds the kinds of those that stand in front. -/
def parameters (g : Grammar) : Nat → List Parameter → Parser Unit
  | 0, _ => return
  | fuel + 1, before => do
    unless ← atEnd do
      let _ ← outerAttributes g
      let p ← parameter g
      if p == .receiver && before.contains .receiver then fail "unexpected second method receiver"
      else if p == .receiver && !before.isEmpty then fail "unexpected method receiver"
      else
        unless ← atEnd do
          mark ","
          unless p == .variadic do parameters g fuel (p :: before)

/-- A function up to its body. -/
def signature (g : Grammar) (allowSafe : Bool) : Parser Bool := do
  let _ ← take? (.word "const")
  let _ ← take? (.word "async")
  let hasUnsafe ← take? (.word "unsafe")
  let safe ← if allowSafe && !hasUnsafe then take? (.word "safe") else pure false
  if ← ahead (.word "extern") then callingConvention
  word "fn"
  let _ ← name
  let _ ← generics g
  inside .parenthesis do parameters g ((← remaining) + 1) []
  if ← take? (.mark "->") then
    let _ ← g.type true
  let _ ← whereClause g
  return safe

/-- A name, or `try`. -/
def nameOrTry : Parser Unit := do
  unless ← take? (.word "try") do
    let _ ← name

/-- A name, or `_`. -/
def nameOrBlank : Parser Unit := do
  unless ← take? (.word "_") do
    let _ ← name

/-- A call of a macro in the place of an item; a name may stand before its tokens if the flag is
set. -/
def macroItem (mayBeNamed : Bool) : Parser Unit := do
  plainPath
  mark "!"
  if mayBeNamed && (← anyAhead [.name, .word "try"]) then
    let _ ← anyWord
  let d ← anyGroup
  unless d == .brace do mark ";"

/-- Bounds with `+` between them up to one of the given tokens. -/
def boundsUntil (g : Grammar) (stops : List Ahead) (allowConst : Bool) : Parser Unit :=
  separatedUntil (anyAhead stops) "+" do
    let _ ← bound g false allowConst

/-- What is known of a type alias that has been read. -/
structure Alias where
  hasBounds : Bool
  hasDefinition : Bool

/-- A type alias after its visibility. The flags tell whether conditions may stand before its
definition and after it. -/
def typeAlias (g : Grammar) (before after : Bool) : Parser Alias := do
  word "type"
  let _ ← name
  let _ ← generics g
  let hasBounds ← take? (.mark ":")
  if hasBounds then boundsUntil g [.word "where", .mark "=", .mark ";"] true
  let hasConditions ← if before then whereClause g else pure false
  let hasDefinition ← take? (.mark "=")
  if hasDefinition then
    let _ ← g.type true
  if after && !hasConditions then
    let _ ← whereClause g
  mark ";"
  return { hasBounds, hasDefinition }

/-- What a constant gives: its name, its value, and whether it has parameters or conditions. -/
structure ConstItem where
  name : String
  value : Option ExprShape
  isGeneric : Bool

/-- A constant after the word that announces it. -/
def constItem (g : Grammar) : Parser ConstItem := do
  unless ← anyAhead [.name, .word "_"] do expectedOneOf [.name, .word "_"]
  let name ← anyWord
  let hasGenerics ← generics g
  mark ":"
  let _ ← g.type true
  let value ← if ← take? (.mark "=") then some <$> g.expr true else pure none
  let hasConditions ← whereClause g
  mark ";"
  return { name, value, isGeneric := hasGenerics || hasConditions }

/-- A constant that counts if it has a value and no parameters. If the value is a text, the constant
is found; it stands before those in its type. -/
def foundConst (g : Grammar) : Parser Bool := do
  let before := (← get).found
  let c ← constItem g
  if c.value.isNone || c.isGeneric then return false
  else
    match c.value with
    | some (.text value start stop) =>
      modify fun s =>
        { s with found := before ++ [⟨c.name, value, start, stop⟩] ++ s.found.drop before.length }
    | _ => pure ()
    return true

/-- The tokens that start a call of a macro. -/
def macroStarts : List Ahead :=
  [.name, .word "self", .word "super", .word "crate", .mark "::"]

/-! ### Types -/

/-- A field with its name. A structure without a name may stand in the place of a type if the field
has no name either. -/
def namedField (g : Grammar) : Parser Unit := do
  let _ ← outerAttributes g
  let _ ← visibility
  let unnamed ← take? (.word "_")
  unless unnamed do
    let _ ← name
  mark ":"
  if unnamed && ((← ahead (.word "struct")) ||
      ((← ahead (.word "union")) && (← ahead2 (.group .brace)))) then
    keepIf do
      let _ ← anyWord
      g.fields
      return false
  else
    let _ ← g.type true

/-- Fields between braces. -/
def namedFields (g : Grammar) : Parser Unit :=
  inside .brace (terminated (namedField g))

/-- Fields between parentheses. -/
def unnamedFields (g : Grammar) : Parser Unit :=
  inside .parenthesis (terminated do
    let _ ← outerAttributes g
    let _ ← visibility
    let _ ← g.type true)

def structItem (g : Grammar) : Parser Unit := do
  word "struct"
  let _ ← name
  let _ ← generics g
  let conditions ← whereClause g
  if !conditions && (← ahead (.group .parenthesis)) then
    unnamedFields g
    let conditions ← whereClause g
    unless ← take? (.mark ";") do
      expectedOneOf ((if conditions then [] else [.word "where"]) ++ [.mark ";"])
  else if ← ahead (.group .brace) then namedFields g
  else unless ← take? (.mark ";") do
    expectedOneOf ((if conditions then [] else [.word "where", .group .parenthesis]) ++
      [.group .brace, .mark ";"])

def enumItem (g : Grammar) : Parser Unit := do
  word "enum"
  let _ ← name
  let _ ← generics g
  let _ ← whereClause g
  inside .brace (terminated do
    let _ ← outerAttributes g
    let _ ← visibility
    let _ ← name
    if ← ahead (.group .brace) then namedFields g
    else if ← ahead (.group .parenthesis) then unnamedFields g
    if ← take? (.mark "=") then
      let _ ← g.expr true)

def unionItem (g : Grammar) : Parser Unit := do
  word "union"
  let _ ← name
  let _ ← generics g
  let _ ← whereClause g
  namedFields g

/-! ### Traits and implementations -/

/-- An item of a trait. It gives whether it counts. -/
def traitItem (g : Grammar) : Parser Bool := do
  let _ ← outerAttributes g
  let isVisible ← visibility
  let isDefault ← take? (.word "default")
  let counts := !isVisible && !isDefault
  let ts ← trees
  let function : Parser Unit := do
    let _ ← signature g false
    if ← ahead (.group .brace) then attributedBlock g
    else unless ← take? (.mark ";") do expectedOneOf [.group .brace, .mark ";"]
  if functionAhead false ts then
    function
    return counts
  else if (Ahead.word "const").holds ts then
    let after := pass ts
    if [Ahead.name, .word "_"].any (·.holds after) then
      word "const"
      let c ← constItem g
      return counts && !c.isGeneric
    else if [Ahead.word "async", .word "unsafe", .word "extern", .word "fn"].any (·.holds after) then
      function
      return counts
    else
      word "const"
      expectedOneOf [.name, .word "_", .word "async", .word "unsafe", .word "extern", .word "fn"]
  else if (Ahead.word "type").holds ts then
    let _ ← typeAlias g false true
    return counts
  else if counts && macroStarts.any (·.holds ts) then
    macroItem false
    return true
  else
    expectedOneOf ([.word "fn", .word "const", .word "type"] ++ if counts then macroStarts else [])

/-- A trait after its name and parameters. -/
def traitRest (g : Grammar) : Parser Unit := do
  if ← take? (.mark ":") then boundsUntil g [.word "where", .group .brace] true
  let _ ← whereClause g
  inside .brace do
    innerAttributes g
    untilEnd (keepIf (traitItem g))

/-- A trait or another name for bounds. -/
def traitOrAlias (g : Grammar) : Parser Unit := do
  word "trait"
  let _ ← name
  let _ ← generics g
  if ← anyAhead [.group .brace, .mark ":", .word "where"] then traitRest g
  else if ← take? (.mark "=") then
    boundsUntil g [.word "where", .mark ";"] false
    let _ ← whereClause g
    mark ";"
  else expectedOneOf [.group .brace, .mark ":", .word "where", .mark "="]

/-- A trait with the words that may stand in front. -/
def markedTrait (g : Grammar) : Parser Unit := do
  let _ ← take? (.word "unsafe")
  let _ ← take? (.word "auto")
  word "trait"
  let _ ← name
  let _ ← generics g
  traitRest g

/-- An item of an implementation. It gives whether it counts. -/
def implItem (g : Grammar) : Parser Bool := do
  let _ ← outerAttributes g
  let (isVisible, ts) ← lookPast visibility
  let isDefault := (Ahead.word "default").holds ts && !(Ahead.mark "!").holds (pass ts)
  let ts := if isDefault then ts.drop 1 else ts
  let front : Parser Unit := do
    let _ ← visibility
    if isDefault then word "default"
  if functionAhead false ts then
    front
    let _ ← signature g false
    if ← take? (.mark ";") then return false
    else
      attributedBlock g
      return true
  else if (Ahead.word "const").holds ts then
    front
    word "const"
    foundConst g
  else if (Ahead.word "type").holds ts then
    front
    let a ← typeAlias g false true
    return a.hasDefinition && !a.hasBounds
  else if !isVisible && !isDefault && macroStarts.any (·.holds ts) then
    macroItem false
    return true
  else
    front
    expectedOneOf ((if isDefault then [] else [.word "default"]) ++
      [.word "fn", .word "const", .word "type"] ++
      if !isVisible && !isDefault then macroStarts else [])

/-- An implementation. It gives whether it counts. -/
def implementation (g : Grammar) : Parser Bool := do
  let isVisible ← visibility
  let _ ← take? (.word "default")
  let _ ← take? (.word "unsafe")
  word "impl"
  if ← genericsAhead then
    let _ ← generics g
  let isConst := (← ahead (.word "const")) || ((← ahead (.mark "?")) && (← ahead2 (.word "const")))
  if isConst then
    let _ ← take? (.mark "?")
    word "const"
  let isNegative := (← ahead (.mark "!")) && !(← ahead2 (.group .brace))
  if isNegative then mark "!"
  let first ← g.type true
  let isFor ← take? (.word "for")
  if isFor then
    let _ ← g.type true
  else if isNegative then fail "inherent impls cannot be negative"
  let _ ← whereClause g
  inside .brace do
    innerAttributes g
    untilEnd (keepIf (implItem g))
  return !isVisible && !isConst && (!isFor || first.isPath)

/-! ### Foreign items -/

/-- An item of a block of foreign items. It gives whether it counts. -/
def foreignItem (g : Grammar) : Parser Bool := do
  let _ ← outerAttributes g
  let (isVisible, ts) ← lookPast visibility
  let marked := (Ahead.word "unsafe").holds ts || (Ahead.word "safe").holds ts
  if functionAhead true ts then
    let _ ← visibility
    let safe ← signature g true
    if ← ahead (.group .brace) then
      attributedBlock g
      return false
    else
      mark ";"
      return !safe
  else if (Ahead.word "static").holds ts || (marked && (Ahead.word "static").holds (pass ts)) then
    let _ ← visibility
    unless ← take? (.word "unsafe") do
      let _ ← take? (.word "safe")
    word "static"
    let _ ← take? (.word "mut")
    let _ ← name
    mark ":"
    let _ ← g.type true
    let hasValue ← take? (.mark "=")
    if hasValue then
      let _ ← g.expr true
    mark ";"
    return !marked && !hasValue
  else if (Ahead.word "type").holds ts then
    let _ ← visibility
    let a ← typeAlias g true true
    return !a.hasDefinition && !a.hasBounds
  else if !isVisible && macroStarts.any (·.holds ts) then
    macroItem false
    return true
  else
    let _ ← visibility
    expectedOneOf ([.word "fn", .word "static", .word "type"] ++ if isVisible then [] else macroStarts)

/-- A block of foreign items. -/
def foreignBlock (g : Grammar) : Parser Unit := do
  let _ ← take? (.word "unsafe")
  callingConvention
  inside .brace do
    innerAttributes g
    untilEnd (keepIf (foreignItem g))

/-! ### Other items -/

/-- The trees of an import between braces, with commas between them. -/
def useTrees (g : Grammar) (mayBeRooted : Bool) : Nat → Bool → Parser Bool
  | 0, counts => return counts
  | fuel + 1, counts => do
    if ← atEnd then return counts
    else
      let rooted ← if mayBeRooted then take? (.mark "::") else pure false
      let inner ← g.useTree (mayBeRooted && !rooted)
      let counts := counts && !rooted && inner
      if ← atEnd then return counts
      else
        mark ","
        useTrees g mayBeRooted fuel counts

/-- The tree of an import. It gives `false` if a part of it starts at the root. -/
def useTree (g : Grammar) (mayBeRooted : Bool) : Parser Bool := do
  let starts : List Ahead := [.name, .word "self", .word "super", .word "crate", .word "try"]
  if ← anyAhead starts then
    let _ ← anyWord
    if ← take? (.mark "::") then g.useTree false
    else if ← take? (.word "as") then
      if ← anyAhead [.name, .word "_"] then
        let _ ← anyWord
        return true
      else failHere "expected identifier or underscore"
    else return true
  else if ← take? (.mark "*") then return true
  else if ← ahead (.group .brace) then
    inside .brace do useTrees g mayBeRooted ((← remaining) + 1) true
  else expectedOneOf (starts ++ [.mark "*", .group .brace])

/-- An import. It gives whether it counts. -/
def useItem (g : Grammar) : Parser Bool := do
  let _ ← visibility
  word "use"
  let rooted ← take? (.mark "::")
  let counts ← g.useTree (!rooted)
  mark ";"
  return counts

def externCrate : Parser Unit := do
  let _ ← visibility
  word "extern"
  word "crate"
  unless ← take? (.word "self") do
    let _ ← name
  if ← take? (.word "as") then nameOrBlank
  mark ";"

/-- A variable of the program. It gives whether it counts. -/
def staticItem (g : Grammar) : Parser Bool := do
  let _ ← visibility
  word "static"
  let _ ← take? (.word "mut")
  let _ ← name
  if ← take? (.mark "=") then
    let _ ← g.expr true
    mark ";"
    return false
  else
    mark ":"
    let _ ← g.type true
    if ← take? (.mark ";") then return false
    else
      mark "="
      let _ ← g.expr true
      mark ";"
      return true

/-- Items up to the end of the tokens, each with its attributes. -/
def items (g : Grammar) : Parser Unit :=
  untilEnd (keepIf do
    let _ ← outerAttributes g
    g.item)

/-- A module. -/
def moduleItem (g : Grammar) : Parser Unit := do
  let _ ← visibility
  let _ ← take? (.word "unsafe")
  word "mod"
  nameOrTry
  if ← take? (.mark ";") then return
  else if ← ahead (.group .brace) then
    inside .brace do
      innerAttributes g
      items g
  else expectedOneOf [.mark ";", .group .brace]

/-- The definition of a macro by one rule. -/
def ruleItem : Parser Unit := do
  let _ ← visibility
  word "macro"
  let _ ← name
  let hasParameters ← ahead (.group .parenthesis)
  if hasParameters then drop 1
  if ← ahead (.group .brace) then drop 1
  else expectedOneOf ((if hasParameters then [] else [.group .parenthesis]) ++ [.group .brace])

/-- The tokens that start an item. -/
def itemStarts : List Ahead :=
  [.word "fn", .word "extern", .word "use", .word "static", .word "const", .word "unsafe",
    .word "mod", .word "type", .word "struct", .word "enum", .word "union", .word "trait",
    .word "auto", .word "impl", .word "default", .word "macro"]

/-- An item that starts with `extern`, where `ts` are the tokens after that word. -/
def externItem (g : Grammar) (ts : List Tree) : Parser Unit := do
  let skipTo (ts : List Tree) : Parser Unit := modify fun s => { s with trees := ts }
  if (Ahead.word "crate").holds ts then externCrate
  else if (Ahead.group .brace).holds ts then foreignBlock g
  else if Ahead.text.holds ts then
    if (Ahead.group .brace).holds (ts.drop 1) then foreignBlock g
    else
      skipTo (ts.drop 1)
      expectedOneOf [.group .brace]
  else
    skipTo ts
    expectedOneOf [.word "crate", .group .brace, .text]

/-- An item that starts with `unsafe`, where `ts` are the tokens after that word. -/
def unsafeItem (g : Grammar) (ts : List Tree) : Parser Bool := do
  if (Ahead.word "trait").holds ts ||
      ((Ahead.word "auto").holds ts && (Ahead.word "trait").holds (pass ts)) then
    let _ ← visibility
    markedTrait g
    return true
  else if (Ahead.word "impl").holds ts then implementation g
  else if (Ahead.word "extern").holds ts then
    foreignBlock g
    return true
  else if (Ahead.word "mod").holds ts then
    moduleItem g
    return true
  else
    modify fun s => { s with trees := ts }
    expectedOneOf [.word "trait", .word "auto", .word "impl", .word "extern", .word "mod"]

/-- An item after its attributes. It gives whether it counts. -/
def item (g : Grammar) : Parser Bool := do
  let (isVisible, ts) ← lookPast visibility
  let next (text : String) : Bool := (Ahead.word text).holds ts
  let visible (p : Parser Unit) : Parser Bool := do
    let _ ← visibility
    p
    return true
  if functionAhead false ts then
    let _ ← visibility
    let _ ← signature g false
    if ← take? (.mark ";") then return false
    else
      attributedBlock g
      return true
  else if next "extern" then
    externItem g (ts.drop 1)
    return true
  else if next "use" then useItem g
  else if next "static" then staticItem g
  else if next "const" then
    let _ ← visibility
    word "const"
    foundConst g
  else if next "unsafe" then unsafeItem g (ts.drop 1)
  else if next "mod" then
    moduleItem g
    return true
  else if next "type" then
    let _ ← visibility
    let a ← typeAlias g true false
    return a.hasDefinition && !a.hasBounds
  else if next "struct" then visible (structItem g)
  else if next "enum" then visible (enumItem g)
  else if next "union" && Ahead.name.holds (pass ts) then visible (unionItem g)
  else if next "trait" then visible (traitOrAlias g)
  else if next "auto" && (Ahead.word "trait").holds (pass ts) then visible (markedTrait g)
  else if next "impl" || (next "default" && !(Ahead.mark "!").holds (pass ts)) then implementation g
  else if next "macro" then
    ruleItem
    return false
  else if !isVisible && macroStarts.any (·.holds ts) then
    macroItem true
    return true
  else
    let _ ← visibility
    expectedOneOf (itemStarts ++ if isVisible then [] else macroStarts)

end SqlLayout.Host.Parser
