import SqlLayout.Host.Parser.Item

/-!
The constants of a Rust source. The grammar for one level of nesting is built from the grammar for
one level less; a source has no more levels than it has tokens, up to a factor.
-/

namespace SqlLayout.Host

/-- The grammar for phrases that nest at most `depth` levels. -/
def Grammar.atDepth : Nat → Grammar
  | 0 => .nothing
  | depth + 1 =>
    { type := fun allowPlus s => Parser.type (atDepth depth) allowPlus s
      bound := fun s => (do let _ ← Parser.bound (atDepth depth) false true) s
      expr := fun allowStruct s => Parser.expr (atDepth depth) allowStruct s
      unary := fun allowStruct s => Parser.unary (atDepth depth) allowStruct s
      early := fun s => Parser.earlyExpr (atDepth depth) s
      climb := fun allowStruct least left s => Parser.climb (atDepth depth) allowStruct least left s
      pattern := fun s => Parser.pattern (atDepth depth) s
      statements := fun s => Parser.statements (atDepth depth) s
      item := fun s => Parser.item (atDepth depth) s
      fields := fun s => Parser.namedFields (atDepth depth) s
      useTree := fun mayBeRooted s => Parser.useTree (atDepth depth) mayBeRooted s }

/-- A whole source: attributes, then items. -/
def Parser.file (g : Grammar) : Parser Unit := do
  innerAttributes g
  items g

/-- The fault that a group was left before its end. -/
def unreadMessage (d : Delimiter) : String :=
  "unexpected token, expected `" ++ d.closing ++ "`"

/-- Passes over blanks and over comments that document nothing; `fuel` bounds their number. -/
def skipBlanks : Nat → List Char → List Char
  | 0, cs => cs
  | fuel + 1, cs =>
    match blankLength? cs with
    | some n => skipBlanks fuel (cs.drop n)
    | none => cs

/-- The text without the first line if that line names an interpreter. The line break stays, so that
the other lines keep their numbers. -/
def dropInterpreter (text : List Char) : List Char :=
  if startsWith text "#!" && !startsWith (skipBlanks text.length (text.drop 2)) "[" then
    text.dropWhile (· != '\n')
  else text

/-- The text without a byte order mark in front. -/
def dropOrderMark : List Char → List Char
  | '\uFEFF' :: r => r
  | cs => cs

/-- The text of a source that is made of tokens. -/
def codeOf (source : String) : List Char :=
  dropInterpreter (dropOrderMark source.toList)

/-- The constants in a source whose values are text literals, in their order, or the reason why the
source cannot be read. Places are counted in `codeOf source`. -/
def constants (source : String) : Except String (List Constant) :=
  match trees? (codeOf source) with
  | none => .error "cannot parse string into token stream"
  | some trees =>
    match Parser.file (Grammar.atDepth (3 * treesSize trees + 10)) { trees } with
    | .error message => .error message
    | .ok (_, input) =>
      match input.unread with
      | some d => .error (unreadMessage d)
      | none => .ok input.found

end SqlLayout.Host
