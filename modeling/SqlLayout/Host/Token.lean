import SqlLayout.Text.Basic

/-!
The tokens of a Rust source, grouped by their brackets, and the tests that a reader makes on the
tokens ahead of it.
-/

namespace SqlLayout.Host

/-- The kinds of brackets. -/
inductive Delimiter
  | parenthesis
  | bracket
  | brace
  deriving DecidableEq, Repr, Inhabited

/-- The sign that closes a group. -/
def Delimiter.closing : Delimiter → String
  | .parenthesis => ")"
  | .bracket => "]"
  | .brace => "\x7d"

/-- What a group is called in a message. -/
def Delimiter.label : Delimiter → String
  | .parenthesis => "parentheses"
  | .bracket => "square brackets"
  | .brace => "curly braces"

/-- A token, or a group of tokens between brackets. A mark is one character; it is joined to the next
mark if nothing stands between them. A literal knows the places where it starts and stops, counted in
characters. -/
inductive Tree
  | group (delimiter : Delimiter) (trees : List Tree)
  | word (text : String)
  | mark (c : Char) (joined : Bool)
  | literal (text : String) (start stop : Nat)
  deriving Repr, Inhabited

mutual

/-- The number of tokens and brackets in a tree. -/
def Tree.size : Tree → Nat
  | .group _ ts => treesSize ts + 2
  | _ => 1

/-- The number of tokens and brackets in trees. -/
def treesSize : List Tree → Nat
  | [] => 0
  | t :: r => t.size + treesSize r

end

/-- The words that cannot be names. -/
def keywords : List String :=
  ["_", "abstract", "as", "async", "await", "become", "box", "break", "const", "continue", "crate",
    "do", "dyn", "else", "enum", "extern", "false", "final", "fn", "for", "if", "impl", "in", "let",
    "loop", "macro", "match", "mod", "move", "mut", "override", "priv", "pub", "ref", "return",
    "Self", "self", "static", "struct", "super", "trait", "true", "try", "type", "typeof", "unsafe",
    "unsized", "use", "virtual", "where", "while", "yield"]

/-- A literal that is a text. -/
def isText (literal : String) : Bool :=
  literal.startsWith "\"" || literal.startsWith "r"

/-- A literal that is a number. -/
def isNumber (literal : String) : Bool :=
  literal.toList.head?.any Char.isDigit

/-- A number with a base other than ten. -/
def isBased (literal : String) : Bool :=
  ["0x", "0o", "0b"].any fun mark => literal.startsWith mark

/-- A number with a point or an exponent, maybe after a minus. -/
def isFloat (literal : String) : Bool :=
  let number := if literal.startsWith "-" then (literal.drop 1).toString else literal
  let rest := number.toList.dropWhile fun c => c.isDigit || c == '_'
  isNumber number && !isBased number &&
    match rest with
    | '.' :: _ => true
    | c :: r =>
      (c == 'e' || c == 'E') &&
        match r.dropWhile (· == '_') with
        | d :: _ => d.isDigit || d == '+' || d == '-'
        | [] => false
    | [] => false

/-- A whole number. -/
def isInteger (literal : String) : Bool :=
  isNumber literal && !isFloat literal

/-- The value of a digit up to base sixteen; none for a character that is no digit. -/
def digit? (c : Char) : Option Nat :=
  if c.isDigit then some (c.toNat - 48)
  else if 'a' ≤ c && c ≤ 'f' then some (c.toNat - 87)
  else if 'A' ≤ c && c ≤ 'F' then some (c.toNat - 55)
  else none

/-- The base of a number, by its spelling. -/
def baseOf : List Char → Nat
  | '0' :: 'x' :: _ => 16
  | '0' :: 'o' :: _ => 8
  | '0' :: 'b' :: _ => 2
  | _ => 10

/-- The value of a whole number and the word after its digits. -/
def integerParts (literal : String) : Nat × String :=
  let base := baseOf literal.toList
  let isPart (c : Char) : Bool := c == '_' || (digit? c).any (· < base)
  let cs := literal.toList.drop (if base == 10 then 0 else 2)
  let value := ((cs.takeWhile isPart).filterMap digit?).foldl (fun n d => n * base + d) 0
  (value, String.ofList (cs.dropWhile isPart))

/-- A test on the tokens ahead. -/
inductive Ahead
  /-- The given word. -/
  | word (text : String)
  /-- The given marks, joined. -/
  | mark (text : String)
  /-- A word that is no keyword. -/
  | name
  /-- Any word. -/
  | anyWord
  | lifetime
  | literal
  | text
  | integer
  | float
  | group (delimiter : Delimiter)
  deriving DecidableEq, Repr

/-- What is looked for, as a message calls it. -/
def Ahead.label : Ahead → String
  | .word t | .mark t => "`" ++ t ++ "`"
  | .name | .anyWord => "identifier"
  | .lifetime => "lifetime"
  | .literal => "literal"
  | .text => "string literal"
  | .integer => "integer literal"
  | .float => "floating point literal"
  | .group d => d.label

/-- Whether the marks come next, each joined to the one after it. -/
def marksAhead : List Char → List Tree → Bool
  | [], _ => false
  | [c], .mark d _ :: _ => c == d && c != '\x27'
  | c :: cs, .mark d joined :: ts => c == d && c != '\x27' && joined && marksAhead cs ts
  | _, _ => false

/-- Whether the test holds of the tokens ahead. -/
def Ahead.holds : Ahead → List Tree → Bool
  | .word t, .word u :: _ => t == u
  | .mark t, ts => marksAhead t.toList ts
  | .name, .word u :: _ => !keywords.contains u
  | .anyWord, .word _ :: _ => true
  | .lifetime, .mark '\x27' true :: .word _ :: _ => true
  | .literal, .literal _ _ _ :: _ => true
  | .literal, .word u :: _ => u == "true" || u == "false"
  | .literal, .mark '-' _ :: .literal t _ _ :: _ => isNumber t
  | .text, .literal t _ _ :: _ => isText t
  | .integer, .literal t _ _ :: _ => isInteger t
  | .float, .literal t _ _ :: _ => isFloat t
  | .group d, .group e _ :: _ => d == e
  | _, _ => false

/-- The tokens after the next one; a lifetime counts as one token. -/
def pass : List Tree → List Tree
  | .mark '\x27' true :: .word _ :: ts => ts
  | _ :: ts => ts
  | [] => []

end SqlLayout.Host
