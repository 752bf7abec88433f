import SqlLayout.Host.Embedded

/-!
Reports on sources with SQL constants that are not in their layout, as lines and as JSON.
-/

namespace SqlLayout.Command

/-- A source and its constants. -/
structure FileReport where
  path : String
  constants : List Host.Change
  deriving DecidableEq, Repr, Inhabited

/-- A line for every constant of a source. -/
def FileReport.lines (r : FileReport) : String :=
  String.join (r.constants.map fun c =>
    "✗ " ++ r.path ++ ":" ++ toString c.line ++ " " ++ c.name ++ "\n")

/-- A line for a source whose constants have got their layout. -/
def FileReport.fixedLine (r : FileReport) : String :=
  "✓ " ++ r.path ++ " (" ++ toString r.constants.length ++ " constants)\n"

/-! ### JSON -/

/-- The last `n` digits of a number in base sixteen. -/
def hexDigits : Nat → Nat → List Char
  | 0, _ => []
  | n + 1, value => hexDigits n (value / 16) ++ [Nat.digitChar (value % 16)]

/-- A character in a JSON string. -/
def jsonChar (c : Char) : List Char :=
  match c with
  | '"' => ['\\', '"']
  | '\\' => ['\\', '\\']
  | '\x08' => ['\\', 'b']
  | '\x0c' => ['\\', 'f']
  | '\n' => ['\\', 'n']
  | '\r' => ['\\', 'r']
  | '\t' => ['\\', 't']
  | c => if c.toNat < 32 then ['\\', 'u'] ++ hexDigits 4 c.toNat else [c]

/-- A text as a JSON string. -/
def jsonString (s : String) : String :=
  "\"" ++ String.ofList (s.toList.flatMap jsonChar) ++ "\""

/-- Values between brackets, each on a line of its own with the given indentation. -/
def jsonBlock (indent opening closing : String) (items : List String) : String :=
  if items.isEmpty then opening ++ closing
  else
    opening ++ "\n" ++ Text.joinWith ",\n" (items.map fun i => indent ++ "  " ++ i) ++ "\n" ++
      indent ++ closing

def jsonList (indent : String) : List String → String :=
  jsonBlock indent "[" "]"

def jsonObject (indent : String) (fields : List (String × String)) : String :=
  jsonBlock indent "\x7b" "\x7d" (fields.map fun (name, value) => jsonString name ++ ": " ++ value)

/-- A constant as JSON. -/
def changeJson (c : Host.Change) : String :=
  jsonObject "        " [("name", jsonString c.name), ("line", toString c.line)]

/-- A source with its constants as JSON. -/
def FileReport.json (r : FileReport) : String :=
  jsonObject "    "
    [("path", jsonString r.path), ("constants", jsonList "      " (r.constants.map changeJson))]

/-- A report as JSON. -/
def reportJson (rs : List FileReport) : String :=
  jsonObject "" [("files", jsonList "  " (rs.map FileReport.json))]

end SqlLayout.Command
