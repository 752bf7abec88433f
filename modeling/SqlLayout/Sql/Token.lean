import SqlLayout.Text.Basic

/-!
The tokens of PostgreSQL's SQL, the text by which an error message names each of them, and the
places at which they stand.
-/

namespace SqlLayout.Sql

/-- A place in a text. Lines and columns count from one, columns in characters. -/
structure Place where
  line : Nat
  column : Nat
  deriving DecidableEq, Repr, Inhabited

/-- The place after one more character. -/
def Place.next (p : Place) (c : Char) : Place :=
  if c = '\n' then ⟨p.line + 1, 1⟩ else ⟨p.line, p.column + 1⟩

/-- The place after several more characters. -/
def Place.after (p : Place) (cs : List Char) : Place :=
  cs.foldl Place.next p

/-- How a message names a place. -/
def Place.text (p : Place) : String :=
  " at Line: " ++ toString p.line ++ ", Column: " ++ toString p.column

/-- The kinds of constants between quotes. -/
inductive Quoting
  | plain
  | national
  | escaped
  | unicode
  | hex
  | bits
  | bytes
  deriving DecidableEq, Repr

/-- The letters and the quote that open a constant. -/
def Quoting.opening : Quoting → String
  | .plain => "'"
  | .national => "N'"
  | .escaped => "E'"
  | .unicode => "U&'"
  | .hex => "X'"
  | .bits => "B'"
  | .bytes => "B\""

/-- The quote that closes a constant. -/
def Quoting.closing : Quoting → String
  | .bytes => "\""
  | _ => "'"

/-- A token. The text of a constant is its value, with escapes resolved. -/
inductive Token
  | word (text : String)
  | delimited (text : String)
  | number (digits : String) (long : Bool)
  | quoted (quoting : Quoting) (text : String)
  | dollar (tag : Option String) (text : String)
  | placeholder (text : String)
  | symbol (text : String)
  | operator (text : String)
  | stray (char : Char)
  | eof
  deriving DecidableEq, Repr, Inhabited

/-- The text by which a message names a token. -/
def Token.text : Token → String
  | .word t => t
  | .delimited t => "\"" ++ t ++ "\""
  | .number d long => if long then d ++ "L" else d
  | .quoted q t => q.opening ++ t ++ q.closing
  | .dollar tag t => "$" ++ tag.getD "" ++ "$" ++ t ++ "$" ++ tag.getD "" ++ "$"
  | .placeholder t => t
  | .symbol t => t
  | .operator t => t
  | .stray c => c.toString
  | .eof => "EOF"

/-- A piece of white space or a comment, by the text that a message shows for it. -/
structure Gap where
  text : String
  place : Place
  deriving DecidableEq, Repr, Inhabited

/-- The end of a message that names a piece of white space. -/
def Gap.found (g : Gap) : String :=
  g.text ++ g.place.text

/-- A token where it stands. `key` is the upper-case spelling of a bare word and empty for all other
tokens; `gap` is the first piece of white space between the token before it and this one. -/
structure Lexeme where
  token : Token
  key : String
  place : Option Place
  gap : Option Gap
  deriving Repr, Inhabited

/-- What stands after the last token. -/
def Lexeme.eof : Lexeme :=
  ⟨.eof, "", none, none⟩

/-- The place of a token as the end of a message; the end of the text has none. -/
def Lexeme.placeText (t : Lexeme) : String :=
  (t.place.map Place.text).getD ""

/-- The end of a message that names the token at which something went wrong. -/
def Lexeme.found (t : Lexeme) : String :=
  t.token.text ++ t.placeText

end SqlLayout.Sql
