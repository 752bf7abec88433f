/-!
The tree of a TOML document. Every value knows where it stands in the text, so that a complaint about
it can show the place.
-/

namespace SqlLayout.Toml

/-- A range of bytes. -/
structure Span where
  start : Nat
  stop : Nat
  deriving DecidableEq, Repr, Inhabited

/-- A key with its spelling in the text, which may have quotes. -/
structure Key where
  text : String
  spelling : String
  span : Span
  deriving DecidableEq, Repr, Inhabited

/-- How a table came to be: written between braces, brought about by a longer path only, or by the
path of a dotted key. -/
structure TableKind where
  isInline : Bool := false
  isImplicit : Bool := false
  isDotted : Bool := false
  deriving DecidableEq, Repr, Inhabited

mutual

/-- A value. Numbers with a point and points in time are kept as text. -/
inductive Node
  | string (text : String) (span : Span)
  | integer (value : Int) (span : Span)
  | float (text : String) (span : Span)
  | boolean (b : Bool) (span : Span)
  | dateTime (text : String) (span : Span)
  | array (items : List Node) (span : Span)
  | table (kind : TableKind) (entries : List Entry) (span : Option Span)
  | tables (items : List Node) (span : Option Span)

/-- A key with its value. -/
structure Entry where
  key : Key
  node : Node

end

instance : Inhabited Node := ⟨.boolean false default⟩

/-- Where a value stands; a table that only a longer path brought about stands nowhere. -/
def Node.span? : Node → Option Span
  | .string _ s | .integer _ s | .float _ s | .boolean _ s | .dateTime _ s | .array _ s => some s
  | .table _ _ s => s
  | .tables _ s => s

/-- The name of a value's type. -/
def Node.typeName : Node → String
  | .string _ _ => "string"
  | .integer _ _ => "integer"
  | .float _ _ => "float"
  | .boolean _ _ => "boolean"
  | .dateTime _ _ => "datetime"
  | .array _ _ => "array"
  | .table kind _ _ => if kind.isInline then "inline table" else "table"
  | .tables _ _ => "array of tables"

/-- The value of a key. -/
def lookup (key : String) (entries : List Entry) : Option Node :=
  (entries.find? (·.key.text == key)).map (·.node)

/-- The entries with another value for a key that is there. -/
def replace (key : String) (node : Node) (entries : List Entry) : List Entry :=
  entries.map fun e => if e.key.text == key then { e with node } else e

/-- The entries without a key. -/
def erase (key : String) (entries : List Entry) : List Entry :=
  entries.filter (·.key.text != key)

end SqlLayout.Toml
