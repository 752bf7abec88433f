import SqlLayout.Host.Literal

/-!
Parsers over token trees. They find the constants of a source; what they read is not kept. A fault is
a message: the first one ends the reading, except where a phrase is tried.
-/

namespace SqlLayout.Host

/-- A constant whose value is a text literal, with the places where the literal starts and stops. -/
structure Constant where
  name : String
  value : String
  start : Nat
  stop : Nat
  deriving DecidableEq, Repr, Inhabited

/-- The tokens of the group that is being read, the constants found so far, and the first group that
was left before its end. -/
structure Input where
  trees : List Tree
  found : List Constant := []
  unread : Option Delimiter := none
  deriving Repr, Inhabited

/-- A parser for values of type `α`. -/
abbrev Parser := StateT Input (Except String)

namespace Parser

variable {α : Type}

/-- Ends the reading. -/
def fail (message : String) : Parser α :=
  fun _ => .error message

/-- The tokens that are left. -/
def trees : Parser (List Tree) := do
  return (← get).trees

/-- Ends the reading; the message tells if the tokens have run out. -/
def failHere (message : String) : Parser α := do
  if (← trees).isEmpty then fail ("unexpected end of input, " ++ message) else fail message

/-- The fault that none of the given tokens comes next. A token that does come next, but is not
followed by what it needs, is not named. -/
def expectedOneOf (options : List Ahead) : Parser α := do
  let ts ← trees
  match (options.filter fun t => !t.holds ts).map Ahead.label with
  | [] => if (← trees).isEmpty then fail "unexpected end of input" else fail "unexpected token"
  | [a] => failHere ("expected " ++ a)
  | [a, b] => failHere ("expected " ++ a ++ " or " ++ b)
  | all => failHere ("expected one of: " ++ Text.commas all)

/-- Whether the test holds of the tokens ahead. -/
def ahead (t : Ahead) : Parser Bool := do
  return t.holds (← trees)

/-- Whether one of the tests holds. -/
def anyAhead (ts : List Ahead) : Parser Bool := do
  let trees ← trees
  return ts.any (·.holds trees)

/-- Whether the test holds after the next token. -/
def ahead2 (t : Ahead) : Parser Bool := do
  return t.holds (pass (← trees))

/-- Whether the test holds after the next two tokens. -/
def ahead3 (t : Ahead) : Parser Bool := do
  return t.holds (pass (pass (← trees)))

/-- The number of trees that are left, a bound for every loop that takes one in each turn. -/
def remaining : Parser Nat := do
  return (← trees).length

/-- Whether no token is left. -/
def atEnd : Parser Bool := do
  return (← trees).isEmpty

/-- Takes `n` trees. -/
def drop (n : Nat) : Parser Unit :=
  modify fun s => { s with trees := s.trees.drop n }

/-- The number of trees that a token takes. -/
def size : Ahead → Nat
  | .mark t => t.length
  | .lifetime => 2
  | _ => 1

/-- Takes the token if it comes next. -/
def take? (t : Ahead) : Parser Bool := do
  if ← ahead t then
    drop (size t)
    return true
  else return false

/-- Takes the marks. -/
def mark (text : String) : Parser Unit := do
  unless ← take? (.mark text) do fail ("expected `" ++ text ++ "`")

/-- Takes the word. -/
def word (text : String) : Parser Unit := do
  unless ← take? (.word text) do failHere ("expected `" ++ text ++ "`")

/-- Takes a word, even one that is a keyword. -/
def anyWord : Parser String := do
  match ← trees with
  | .word text :: _ =>
    drop 1
    return text
  | _ => failHere "expected ident"

/-- Takes a name. -/
def name : Parser String := do
  match ← trees with
  | .word text :: _ =>
    if keywords.contains text then fail ("expected identifier, found keyword `" ++ text ++ "`")
    else
      drop 1
      return text
  | _ => failHere "expected identifier"

/-- Takes a lifetime. -/
def lifetime : Parser Unit := do
  unless ← take? .lifetime do failHere "expected lifetime"

/-- Reads the tokens of the group that comes next. A group that is left before its end is noted. -/
def inside (d : Delimiter) (p : Parser α) : Parser α := do
  let s ← get
  match s.trees with
  | .group e inner :: rest =>
    if d == e then
      set { s with trees := inner }
      let a ← p
      let after ← get
      set { after with
        trees := rest
        unread := after.unread.or (if after.trees.isEmpty then none else some d) }
      return a
    else fail ("expected " ++ d.label)
  | _ => failHere ("expected " ++ d.label)

/-- Passes over a group of any kind and gives its brackets. -/
def anyGroup : Parser Delimiter := do
  match ← trees with
  | .group d _ :: _ =>
    drop 1
    return d
  | _ => failHere "expected delimiter"

/-- The result of a phrase if it can be read; if not, nothing is taken. -/
def attempt (p : Parser α) : Parser (Option α) :=
  fun s =>
    match p s with
    | .ok (a, s') => .ok (some a, s')
    | .error _ => .ok (none, s)

/-- The result of a phrase and the tokens after it, without taking it. -/
def lookPast (p : Parser α) : Parser (α × List Tree) :=
  fun s => (p s).map fun (a, s') => ((a, s'.trees), s)

/-- Forgets the constants that a phrase holds if it gives `false`. -/
def keepIf (p : Parser Bool) : Parser Unit := do
  let before := (← get).found
  unless ← p do modify fun s => { s with found := before }

/-- Repeats a step while it gives `true`; a step that goes on takes a token. -/
def repeatWhile (step : Parser Bool) : Nat → Parser Unit
  | 0 => return
  | fuel + 1 => do if ← step then repeatWhile step fuel

/-- Repeats a step while it gives `true`. -/
def loop (step : Parser Bool) : Parser Unit := do
  repeatWhile step ((← remaining) + 1)

/-- Phrases up to the end of the tokens. -/
def untilEnd (p : Parser Unit) : Parser Unit :=
  loop do
    if ← atEnd then return false
    else
      p
      return true

/-- Phrases with a mark between them, and maybe after the last one, up to a place where `stop`
holds. -/
def separatedUntil (stop : Parser Bool) (separator : String) (p : Parser Unit) : Parser Unit :=
  loop do
    if ← stop then return false
    else
      p
      if ← stop then return false
      else
        mark separator
        return true

/-- Phrases with commas between them, and maybe after the last one, up to the end of the tokens. -/
def terminated (p : Parser Unit) : Parser Unit :=
  separatedUntil atEnd "," p

/-- Phrases with a mark between them; the list ends where `stop` holds or no mark follows. -/
def separatedWhile (stop : Parser Bool) (separator : String) (p : Parser Unit) : Parser Unit :=
  loop do
    if ← stop then return false
    else
      p
      take? (.mark separator)

end Parser

end SqlLayout.Host
