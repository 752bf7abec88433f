import SqlLayout.Sql.Printer
import SqlLayout.Text.Quoted

/-!
Parsers over tokens: a parser takes the tokens that are left and gives a result or the reason why there
is none, and in both cases the tokens after what it read. Choice is explicit: only `attempt` and
`outcome` give tokens back.
-/

namespace SqlLayout.Sql

/-- Why a phrase cannot be read. Too deep a nesting ends the reading for good; any other fault may
be answered by trying another phrase. -/
inductive Fault
  | tooDeep
  | message (text : String)
  deriving DecidableEq, Repr, Inhabited

/-- The text of a fault. -/
def Fault.text : Fault → String
  | .tooDeep => "recursion limit exceeded"
  | .message t => t

/-- Where an expression stands. In a column's definition `NOT NULL` and `COLLATE` start the next option
of the column and are no operators. -/
inductive Scope
  | anywhere
  | columnDefinition
  deriving DecidableEq, Repr, Inhabited

/-- A parser for values of type `α`. -/
abbrev Parser := ReaderT Scope (EStateM Fault (List Lexeme))

/-- A fault together with the tokens that were left when it arose. -/
structure Stop where
  fault : Fault
  left : List Lexeme
  deriving Repr, Inhabited

namespace Parser

variable {α β : Type}

/-- Ends the reading of a phrase. -/
def fail (f : Fault) : Parser α :=
  fun _ ts => .error f ts

/-- Ends the reading of a phrase with a message. -/
def failWith (text : String) : Parser α :=
  fail (.message text)

/-- Ends the reading where an earlier attempt ended. -/
def raise (s : Stop) : Parser α :=
  fun _ _ => .error s.fault s.left

/-- The token that comes next; at the end of the text a token that says so. -/
def peek : Parser Lexeme :=
  fun _ ts => .ok (ts.headD .eof) ts

/-- The token `n` places ahead. -/
def peekAt (n : Nat) : Parser Lexeme :=
  fun _ ts => .ok (ts.getD n .eof) ts

/-- Takes the next token. -/
def next : Parser Lexeme :=
  fun _ ts => .ok (ts.headD .eof) ts.tail

/-- The number of tokens left, a bound for every loop that uses one up in each turn. -/
def remaining : Parser Nat :=
  fun _ ts => .ok ts.length ts

/-- Reads a phrase as it stands in the given scope. -/
def within (scope : Scope) (p : Parser α) : Parser α :=
  fun _ ts => p scope ts

/-- The fault that something else stands where `what` is due. -/
def expectedBut (what : String) (t : Lexeme) : Parser α :=
  failWith ("Expected: " ++ what ++ ", found: " ++ t.found)

/-- The fault that the next token is not `what`. -/
def expected (what : String) : Parser α := do
  expectedBut what (← peek)

/-- A fault at the next token. -/
def failHere (text : String) : Parser α := do
  failWith (text ++ (← peek).placeText)

/-- Takes the symbol if it comes next. -/
def symbol? (s : String) : Parser Bool
  | _, t :: ts => if t.token = .symbol s then .ok true ts else .ok false (t :: ts)
  | _, [] => .ok false []

/-- Takes the symbol. -/
def symbol (s : String) : Parser Unit := do
  unless ← symbol? s do expected s

/-- Takes all of the symbols, or none of them. -/
def symbols? (ss : List String) : Parser Bool :=
  fun _ ts =>
    if (ts.take ss.length).map (·.token) = ss.map .symbol then .ok true (ts.drop ss.length)
    else .ok false ts

/-- Whether the symbol comes next. -/
def nextIs (s : String) : Parser Bool := do
  return (← peek).token == .symbol s

/-- Whether the keyword comes next. -/
def nextIsWord (k : String) : Parser Bool := do
  return (← peek).key == k

/-- Whether one of the keywords comes next. -/
def nextIsOneOf (ks : List String) : Parser Bool := do
  let key := (← peek).key
  return key != "" && ks.contains key

/-- Whether the keywords come next, one after the other. -/
def nextAreWords (ks : List String) : Parser Bool :=
  fun _ ts => .ok ((ts.take ks.length).map (·.key) = ks) ts

/-- Takes the keyword if it comes next. -/
def word? (k : String) : Parser Bool
  | _, t :: ts => if t.key = k then .ok true ts else .ok false (t :: ts)
  | _, [] => .ok false []

/-- Takes all of the keywords, or none of them. -/
def words? (ks : List String) : Parser Bool :=
  fun _ ts =>
    if (ts.take ks.length).map (·.key) = ks then .ok true (ts.drop ks.length) else .ok false ts

/-- Takes the keyword. -/
def word (k : String) : Parser Unit := do
  unless ← word? k do expected k

/-- Takes the keywords one by one. -/
def words (ks : List String) : Parser Unit :=
  ks.forM word

/-- Takes one of the keywords if one comes next. -/
def oneOf? (ks : List String) : Parser (Option String) := do
  let t ← peek
  if t.key ≠ "" ∧ t.key ∈ ks then
    let _ ← next
    return some t.key
  else return none

/-- Takes one of the keywords. -/
def oneOf (ks : List String) : Parser String := do
  match ← oneOf? ks with
  | some k => return k
  | none => expected ("one of " ++ Text.joinWith " or " ks)

/-- Takes one of the keywords, where a fault speaks of `what`. -/
def oneOfAs (what : String) (ks : List String) : Parser String := do
  match ← oneOf? ks with
  | some k => return k
  | none => expected what

/-- Takes the first of several runs of keywords that comes next. -/
def oneOfRuns? : List (List String) → Parser (Option (List String))
  | [] => return none
  | ks :: rest => do
    if ← words? ks then return some ks else oneOfRuns? rest

/-- The result of a phrase if it can be read; if not, no token is taken. Too deep a nesting is not
forgiven. -/
def attempt (p : Parser α) : Parser (Option α) :=
  fun scope ts =>
    match p scope ts with
    | .ok a rest => .ok (some a) rest
    | .error .tooDeep _ => .error .tooDeep ts
    | .error _ _ => .ok none ts

/-- The first phrase, or the second when the first cannot be read. -/
def orElse (p q : Parser α) : Parser α := do
  match ← attempt p with
  | some a => return a
  | none => q

/-- The outcome of a phrase as a value; a phrase that cannot be read takes no token. -/
def outcome (p : Parser α) : Parser (Except Stop α) :=
  fun scope ts =>
    match p scope ts with
    | .ok a rest => .ok (.ok a) rest
    | .error f rest => .ok (.error ⟨f, rest⟩) ts

/-- The result of a phrase if it can be read; what was read of it is taken in either case. -/
def taking (p : Parser α) : Parser (Option α) :=
  fun scope ts =>
    match p scope ts with
    | .ok a rest => .ok (some a) rest
    | .error _ rest => .ok none rest

/-- Repeats a step until it gives a result; `fuel` bounds the number of turns. -/
def loop (step : β → Parser (β ⊕ α)) : Nat → β → Parser α
  | 0, _ => expected "end of statement"
  | n + 1, b => do
    match ← step b with
    | .inl b => loop step n b
    | .inr a => return a

/-- Repeats a step that uses up at least one token in each turn but the last. -/
def repeatFrom (start : β) (step : β → Parser (β ⊕ α)) : Parser α := do
  loop step ((← remaining) + 1) start

/-- Collects what a parser gives until it gives nothing. -/
def many (p : Parser (Option α)) : Parser (List α) :=
  repeatFrom [] fun acc => do
    match ← p with
    | some a => return .inl (a :: acc)
    | none => return .inr acc.reverse

/-- Collects phrases as long as `more` says that another one follows. -/
def manyWith (more : Parser Bool) (p : Parser α) : Parser (List α) :=
  repeatFrom [] fun acc => do
    let a ← p
    if ← more then return .inl (a :: acc) else return .inr (a :: acc).reverse

/-- One or more phrases with commas between them. -/
def commaSeparated (p : Parser α) : Parser (List α) :=
  manyWith (symbol? ",") p

/-- Phrases with commas between them up to a closing symbol, which is not taken. -/
def commaSeparatedUntil (closing : String) (p : Parser α) : Parser (List α) := do
  if ← nextIs closing then return [] else commaSeparated p

/-- A phrase between parentheses. -/
def parens (p : Parser α) : Parser α := do
  symbol "("
  let a ← p
  symbol ")"
  return a

/-- A phrase if a keyword announces it. -/
def afterWord (k : String) (p : Parser α) : Parser (Option α) := do
  if ← word? k then return some (← p) else return none

/-- A phrase if several keywords announce it. -/
def afterWords (ks : List String) (p : Parser α) : Parser (Option α) := do
  if ← words? ks then return some (← p) else return none

/-- The last token that was taken since `start` was left. -/
def lastSince (start : List Lexeme) : Parser Lexeme :=
  fun _ ts => .ok ((start.take (start.length - ts.length)).getLastD .eof) ts

end Parser

end SqlLayout.Sql
