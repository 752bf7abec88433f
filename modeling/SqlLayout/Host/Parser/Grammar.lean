import SqlLayout.Host.Parser.Basic

/-!
The phrases that hold themselves, as a parameter of the parsers for everything else. Of a phrase that
has been read only its shape is known: as much as the phrases around it ask for.
-/

namespace SqlLayout.Host

/-- The shape of an expression. -/
inductive ExprShape
  /-- A text literal with its places. -/
  | text (value : String) (start stop : Nat)
  | range
  | comparison
  /-- An expression that ends with a block and can stand as a statement. -/
  | block
  /-- A call of a macro, with the brackets around its tokens. -/
  | invocation (delimiter : Delimiter)
  | other
  deriving DecidableEq, Repr, Inhabited

/-- The shape of a type. -/
inductive TypeShape
  /-- A path of one segment whose arguments, if any, are in angle brackets. -/
  | segment
  | path
  /-- One bound in the place of a type. -/
  | bound
  | parenthesized
  | other
  deriving DecidableEq, Repr, Inhabited

/-- The type is a path. -/
def TypeShape.isPath : TypeShape → Bool
  | .segment | .path => true
  | _ => false

/-- The shape of a pattern. -/
inductive PatternShape
  /-- A range that lacks an end. -/
  | openRange
  | other
  deriving DecidableEq, Repr, Inhabited

/-- Parsers for the phrases that may hold phrases of their own kind. -/
structure Grammar where
  /-- A type; several bounds with `+` between them may stand for one if the flag is set. -/
  type : Bool → Parser TypeShape
  /-- A bound of a type. -/
  bound : Parser Unit
  /-- An expression; a name before a brace starts a structure if the flag is set. -/
  expr : Bool → Parser ExprShape
  /-- An expression without operators between operands. -/
  unary : Bool → Parser ExprShape
  /-- An expression that ends, if it starts with one, after a block. -/
  early : Parser ExprShape
  /-- The operators from a strength on that follow an operand. -/
  climb : Bool → Nat → ExprShape → Parser ExprShape
  pattern : Parser PatternShape
  /-- The statements of a block up to its end. -/
  statements : Parser Unit
  /-- An item after its attributes. It gives `false` if its contents do not count. -/
  item : Parser Bool
  /-- The fields of a structure between braces. -/
  fields : Parser Unit
  /-- The tree of an import; it gives `false` if it does not count. -/
  useTree : Bool → Parser Bool

/-- The grammar that reads nothing. -/
def Grammar.nothing : Grammar where
  type _ := Parser.fail ""
  bound := Parser.fail ""
  expr _ := Parser.fail ""
  unary _ := Parser.fail ""
  early := Parser.fail ""
  climb _ _ _ := Parser.fail ""
  pattern := Parser.fail ""
  statements := Parser.fail ""
  item := Parser.fail ""
  fields := Parser.fail ""
  useTree _ := Parser.fail ""

end SqlLayout.Host
