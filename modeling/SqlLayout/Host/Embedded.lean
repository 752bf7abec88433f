import SqlLayout.Format
import SqlLayout.Host.Parser

/-!
SQL in a Rust source: the constants whose text starts with an SQL verb get a new literal that holds
the statement in its layout. Everything else stays as it is.
-/

namespace SqlLayout.Host

/-- The words with which SQL starts. -/
def sqlVerbs : List String :=
  ["SELECT", "INSERT", "UPDATE", "DELETE"]

/-- The first word of the text is an SQL verb, in any case. -/
def looksLikeSql (text : String) : Bool :=
  sqlVerbs.any (Text.eqIgnoreCase (Text.firstWord text))

/-- A place in a text: lines count from one, columns from zero. -/
structure Place where
  line : Nat := 1
  column : Nat := 0
  deriving DecidableEq, Repr, Inhabited

/-- The place after one more character. -/
def Place.next (p : Place) (c : Char) : Place :=
  if c == '\n' then ⟨p.line + 1, 0⟩ else ⟨p.line, p.column + 1⟩

/-- The place of the character with the given number. -/
def placeOf (text : List Char) (offset : Nat) : Place :=
  (text.take offset).foldl Place.next {}

/-- The number of the first character of a line, where `line` counts from zero; none if there are
fewer lines. -/
def lineStart? : Nat → List Char → Option Nat
  | 0, _ => some 0
  | _ + 1, [] => none
  | line + 1, c :: r => (lineStart? (if c == '\n' then line else line + 1) r).map (· + 1)

/-- The number of the character at a place. The column may go beyond the end of its line, but not
beyond the end of the text. -/
def offsetOf (text : List Char) (p : Place) : Outcome Nat :=
  match if p.line = 0 then none else lineStart? (p.line - 1) text with
  | none => .error (.source ("span line " ++ toString p.line ++ " out of range"))
  | some start =>
    if start + p.column ≤ text.length then .ok (start + p.column)
    else .error (.source ("span column " ++ toString p.column ++ " out of range"))

/-- A piece of a text, given by the numbers of its first character and of the one after its last,
and what takes its place. -/
structure Edit where
  start : Nat
  stop : Nat
  replacement : String
  deriving DecidableEq, Repr, Inhabited

/-- The text after an edit. -/
def Edit.apply (e : Edit) (text : List Char) : List Char :=
  text.take e.start ++ e.replacement.toList ++ text.drop e.stop

/-- The text after several edits. The last one is made first, so that those before it still find
their places. -/
def applyEdits (edits : List Edit) (text : List Char) : List Char :=
  edits.foldr Edit.apply text

/-- A constant that has a new literal, and the line of its literal. -/
structure Change where
  name : String
  line : Nat
  deriving DecidableEq, Repr, Inhabited

/-- A source with new literals, and the constants that have one. -/
structure Revision where
  source : String
  changes : List Change
  deriving DecidableEq, Repr, Inhabited

/-- Some constant has a new literal. -/
def Revision.isChanged (r : Revision) : Bool :=
  !r.changes.isEmpty

/-- The new literal of a constant and its place in the source; none if the constant holds no SQL or
its text is in its layout already. Places are taken by line and column, so in the first line a byte
order mark moves them. -/
def editOf (style : Style) (source : String) (c : Constant) : Outcome (Option (Edit × Change)) := do
  if !looksLikeSql c.value then return none
  else
    let formatted ← format style (Text.trim c.value)
    if formatted == c.value then return none
    else
      let place := placeOf (codeOf source) c.start
      let start ← offsetOf source.toList place
      let stop ← offsetOf source.toList (placeOf (codeOf source) c.stop)
      return some (⟨start, stop, rawLiteral formatted⟩, ⟨c.name, place.line⟩)

/-- The source with every SQL constant in its layout. -/
def layOut (style : Style) (source : String) : Outcome Revision := do
  let found ← (constants source).mapError .source
  let edits ← found.filterMapM (editOf style source)
  return {
    source := String.ofList (applyEdits (edits.map (·.1)) source.toList)
    changes := edits.map (·.2) }

end SqlLayout.Host
