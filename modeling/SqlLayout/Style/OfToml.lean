import SqlLayout.Error
import SqlLayout.Style
import SqlLayout.Text.Quoted
import SqlLayout.Toml.Document

/-!
Styles from TOML. The table `format-settings` holds the options; a key that is not there keeps its
default, and a key that is not known is passed over. An array may stand for a table: it gives the
options in their order.
-/

namespace SqlLayout.Style

open Toml (Node Entry Span)

/-- What is wrong with a value, and where if that is known yet. -/
structure Fault where
  span : Option Span
  text : String
  deriving Repr

/-- A fault of a value that has no place is a fault at the given place. -/
def placed {α : Type} (span : Option Span) (r : Except Fault α) : Except Fault α :=
  r.mapError fun f => { f with span := f.span.or span }

/-- The spellings of the values of an option. -/
abbrev Choice (α : Type) := List (String × α)

def indentChoice : Choice IndentUnit :=
  [("TAB", .tab), ("TWO_SPACES", .twoSpaces)]

def functionCaseChoice : Choice NameCase :=
  [("LOWERCASE", .lower), ("UPPERCASE", .upper)]

def joinIndentChoice : Choice Bool :=
  [("NONE", false), ("ONE_SPACE", true)]

def onLineChoice : Choice Bool :=
  [("ON_CLAUSE", true), ("OFF", false)]

/-- The value with the given spelling. -/
def choose {α : Type} (choice : Choice α) (name : String) : Except Fault α :=
  match choice.lookup name with
  | some a => .ok a
  | none =>
    .error ⟨none, "unknown variant `" ++ name ++ "`, expected " ++
      Text.joinWith " or " (choice.map fun (n, _) => "`" ++ n ++ "`")⟩

/-- A value of an option that is named by a key has nothing to say under it. -/
def checkEmpty : Node → Except Fault Unit
  | .table _ [] _ | .array [] _ | .tables [] _ => .ok ()
  | .table _ _ span => .error ⟨span, "expected empty table"⟩
  | .array _ span => .error ⟨some span, "expected empty table"⟩
  | .tables _ span => .error ⟨span, "expected empty array"⟩
  | v => .error ⟨v.span?, "expected table, found " ++ v.typeName⟩

/-- The value of an option: its spelling as a string, or as the only key of a table. -/
def optionOf {α : Type} (choice : Choice α) (node : Node) : Except Fault α :=
  placed node.span? <|
    match node with
    | .string text _ => choose choice text
    | .table _ [] span => .error ⟨span, "wanted exactly 1 element, found 0 elements"⟩
    | .table _ [e] _ => do
      let a ← placed (some e.key.span) (choose choice e.key.text)
      checkEmpty e.node
      return a
    | .table _ _ span => .error ⟨span, "wanted exactly 1 element, more than 1 element"⟩
    | v => .error ⟨v.span?, "wanted string or table"⟩

/-- One field of a group of options: its key, and how a value for it changes a style. -/
abbrev Field := String × (Node → Style → Except Fault Style)

/-- Reads the fields of a table in the order of its entries. -/
def readEntries (fields : List Field) (s : Style) (entries : List Entry) : Except Fault Style :=
  entries.foldlM (fun s e =>
    match fields.lookup e.key.text with
    | some read => placed (e.node.span?.or (some e.key.span)) (read e.node s)
    | none => .ok s) s

/-- Reads the fields in their order, one for each item. -/
def readItems (fields : List Field) (s : Style) (items : List Node) : Except Fault Style :=
  (fields.zip items).foldlM (fun s (field, node) => field.2 node s) s

/-- Reads a group of options; `name` is the name of the group in a complaint. -/
def readGroup (name : String) (fields : List Field) (node : Node) (s : Style) :
    Except Fault Style :=
  let wrong (what : String) : Except Fault Style :=
    .error ⟨node.span?, "invalid type: " ++ what ++ ", expected struct " ++ name⟩
  match node with
  | .table _ entries _ => readEntries fields s entries
  | .array items _ | .tables items _ => placed node.span? (readItems fields s items)
  | .dateTime _ _ => .ok s
  | .string text _ => wrong ("string " ++ Text.quoted text)
  | .integer n _ => wrong ("integer `" ++ toString n ++ "`")
  | .float text _ => wrong ("floating point `" ++ Toml.roundedText text ++ "`")
  | .boolean b _ => wrong ("boolean `" ++ toString b ++ "`")

def functionFields : List Field :=
  [("name-type-case", fun v s => do return { s with functionCase := ← optionOf functionCaseChoice v })]

def joinFields : List Field :=
  [("start-indent-type", fun v s => do return { s with joinIndented := ← optionOf joinIndentChoice v }),
    ("line-break-type", fun v s => do return { s with onOwnLine := ← optionOf onLineChoice v })]

def styleFields : List Field :=
  [("indent-type", fun v s => do return { s with indent := ← optionOf indentChoice v }),
    ("func", readGroup "FuncConfig" functionFields),
    ("join", readGroup "JoinConfig" joinFields)]

/-- The fields of a whole document. -/
def documentFields : List Field :=
  [("format-settings", readGroup "StyleConfig" styleFields)]

/-- The style that a document gives, or a complaint about it. -/
def read (text : String) : Except String Style := do
  let entries ← Toml.parse text
  (readEntries documentFields {} entries).mapError fun f =>
    match f.span with
    | some span => Toml.complaint text span f.text
    | none => f.text ++ "\n"

/-- The style that a document gives. -/
def ofToml (text : String) : Outcome Style :=
  (read text).mapError .config

end SqlLayout.Style
