import SqlLayout.Sql.Token
import SqlLayout.Text.Letter

/-!
Reading SQL text as tokens. Each reader takes the characters that are left and gives back a token
together with the characters after it; white space and comments are passed over. Places are worked
out from the characters that a reader used up.
-/

namespace SqlLayout.Sql

/-- Why the text cannot be read as tokens, with the characters left where it went wrong. -/
structure Misreading where
  message : String
  left : List Char

/-- A result of reading: a value and the characters after it. -/
abbrev Reading (α : Type) := Except Misreading (α × List Char)

namespace Lexer

/-- A character that may start a bare word. -/
def startsWord (c : Char) : Bool :=
  c.isAlpha || c == '_' || c.toNat ≥ 128

/-- A character that may continue a bare word. -/
def continuesWord (c : Char) : Bool :=
  c.isAlphanum || c == '_' || c == '$' || c.toNat ≥ 128

/-- The characters of which operators are made. -/
def isOperatorChar (c : Char) : Bool :=
  "+-*/<>=~!@#%^&|\x60?".toList.contains c

/-- A hexadecimal digit's value. -/
def hexValue? (c : Char) : Option Nat :=
  if c.isDigit then some (c.toNat - 48)
  else if 'a' ≤ c && c ≤ 'f' then some (c.toNat - 87)
  else if 'A' ≤ c && c ≤ 'F' then some (c.toNat - 55)
  else none

/-- The character with a code point, if there is one. -/
def charOf? (n : Nat) : Option Char :=
  if n.isValidChar then some (Char.ofNat n) else none

/-- The character that a backslash and a letter stand for in a plain constant with escapes. -/
def plainEscape (c : Char) : Char :=
  if c == '0' then '\x00' else if c == 'a' then '\x07' else if c == 'b' then '\x08'
  else if c == 'f' then '\x0c' else if c == 'n' then '\n' else if c == 'r' then '\r'
  else if c == 't' then '\t' else if c == 'Z' then '\x1a' else c

/-- The value of a constant up to its closing quote, a doubled quote standing for one, and the
characters after it; `none` when the quote never comes. -/
def untilQuote (quote : Char) (escapes : Bool) : List Char → Option (List Char × List Char)
  | [] => none
  | c :: r =>
    if c == quote then
      match r with
      | [] => some ([], [])
      | d :: r' =>
        if d == quote then (untilQuote quote escapes r').map fun (v, s) => (quote :: v, s)
        else some ([], d :: r')
    else if escapes && c == '\\' then
      match r with
      | [] => none
      | d :: r' => (untilQuote quote escapes r').map fun (v, s) => (plainEscape d :: v, s)
    else (untilQuote quote escapes r).map fun (v, s) => (c :: v, s)

/-- A constant that starts at its opening quote. -/
def quoted (quoting : Quoting) (quote : Char) (escapes : Bool) (cs : List Char) : Reading Token :=
  match untilQuote quote escapes (cs.drop 1) with
  | some (v, r) => .ok (.quoted quoting (String.ofList v), r)
  | none => .error ⟨"Unterminated string literal", cs⟩

/-- At most `n` leading characters that satisfy `p`. -/
def takeUpTo (p : Char → Bool) : Nat → List Char → List Char
  | 0, _ => []
  | _, [] => []
  | n + 1, c :: r => if p c then c :: takeUpTo p n r else []

/-- The number that digits in a base stand for. -/
def ofDigits (base : Nat) (cs : List Char) : Option Nat :=
  cs.foldlM (fun n c => (hexValue? c).bind fun d => if d < base then some (n * base + d) else none) 0

/-- The low byte of a number as an ASCII character. -/
def lowByte? (n : Nat) : Option Char :=
  if n % 256 ≤ 127 then some (Char.ofNat (n % 256)) else none

/-- The character written by fixed-width hexadecimal digits. -/
def wideEscape (width : Nat) (cs : List Char) : Option (Char × List Char) := do
  let digits := cs.take width
  if digits.length < width then none
  else
    let digits := match digits with
      | '+' :: d => d
      | d => d
    let c ← charOf? (← ofDigits 16 digits)
    return (c, cs.drop width)

/-- The character after a backslash in an `E` constant. -/
def escapedChar (c : Char) (r : List Char) : Option (Char × List Char) :=
  if c == 'b' then some ('\x08', r)
  else if c == 'f' then some ('\x0c', r)
  else if c == 'n' then some ('\n', r)
  else if c == 'r' then some ('\r', r)
  else if c == 't' then some ('\t', r)
  else if c == 'u' then wideEscape 4 r
  else if c == 'U' then wideEscape 8 r
  else if c == 'x' then
    let ds := takeUpTo (fun d => (hexValue? d).isSome) 2 r
    if ds.isEmpty then some ('x', r)
    else ((ofDigits 16 ds).bind lowByte?).map fun d => (d, r.drop ds.length)
  else if '0' ≤ c && c ≤ '7' then
    let ds := takeUpTo (fun d => '0' ≤ d && d ≤ '7') 2 r
    ((ofDigits 8 (c :: ds)).bind lowByte?).map fun d => (d, r.drop ds.length)
  else some (c, r)

/-- The value of an `E` constant after its opening quote; `fuel` bounds the number of steps. -/
def untilEscapedQuote : Nat → List Char → Option (List Char × List Char)
  | 0, _ => none
  | _, [] => none
  | n + 1, '\x27' :: '\x27' :: r =>
    (untilEscapedQuote n r).map fun (v, s) => ('\x27' :: v, s)
  | _, '\x27' :: r => some ([], r)
  | _, ['\\'] => none
  | n + 1, '\\' :: c :: r => do
    let (d, r) ← escapedChar c r
    if d == '\x00' then none
    else
      let (v, s) ← untilEscapedQuote n r
      return (d :: v, s)
  | n + 1, c :: r => (untilEscapedQuote n r).map fun (v, s) => (c :: v, s)

/-- A character written by a fixed number of hexadecimal digits in a `U&` constant. -/
def unicodeEscape : Nat → Nat → List Char → Reading Char
  | 0, acc, r =>
    match charOf? acc with
    | some c => .ok (c, r)
    | none =>
      .error ⟨"Invalid unicode character: " ++ String.ofList (Nat.toDigits 16 acc), r⟩
  | _ + 1, _, [] =>
    .error ⟨"Unexpected EOF while parsing hex digit in escaped unicode string.", []⟩
  | n + 1, acc, c :: r =>
    match hexValue? c with
    | some d => unicodeEscape n (acc * 16 + d) r
    | none => .error ⟨"Invalid hex digit in escaped unicode string: " ++ c.toString, r⟩

/-- The value of a `U&` constant after its opening quote; `fuel` bounds the number of steps. -/
def untilUnicodeQuote : Nat → List Char → List Char → Reading (List Char)
  | n + 1, acc, '\x27' :: '\x27' :: r => untilUnicodeQuote n ('\x27' :: acc) r
  | _, acc, '\x27' :: r => .ok (acc.reverse, r)
  | n + 1, acc, '\\' :: '\\' :: r => untilUnicodeQuote n ('\\' :: acc) r
  | n + 1, acc, '\\' :: '+' :: r =>
    match unicodeEscape 6 0 r with
    | .ok (c, r) => untilUnicodeQuote n (c :: acc) r
    | .error m => .error m
  | n + 1, acc, '\\' :: r =>
    match unicodeEscape 4 0 r with
    | .ok (c, r) => untilUnicodeQuote n (c :: acc) r
    | .error m => .error m
  | n + 1, acc, c :: r => untilUnicodeQuote n (c :: acc) r
  | _, _, r => .error ⟨"Unterminated unicode encoded string literal", r⟩

/-- A bare word that starts here. -/
def word (cs : List Char) : Reading Token :=
  .ok (.word (String.ofList (cs.takeWhile continuesWord)), cs.dropWhile continuesWord)

/-- Splits off digits; one underscore may stand before a hexadecimal digit. -/
def digits (isDigit : Char → Bool) : List Char → List Char × List Char
  | [] => ([], [])
  | c :: r =>
    let groups := c == '_' && ((r.head?.bind hexValue?).isSome)
    if isDigit c || groups then
      let (d, s) := digits isDigit r
      (c :: d, s)
    else ([], c :: r)

/-- The exponent of a number, if one stands here. -/
def exponent (cs : List Char) : List Char × List Char :=
  match cs with
  | e :: r =>
    if e == 'e' || e == 'E' then
      let (sign, r) := match r with
        | '+' :: r => (['+'], r)
        | '-' :: r => (['-'], r)
        | r => ([], r)
      let ds := r.takeWhile Char.isDigit
      if ds.isEmpty then ([], cs) else (e :: sign ++ ds, r.dropWhile Char.isDigit)
    else ([], cs)
  | [] => ([], cs)

/-- The point that parts two names when the second one starts with an underscore. -/
def pointBeforeName (afterWord : Bool) (cs : List Char) : Option (Reading Token) :=
  match cs with
  | '.' :: '_' :: r =>
    if afterWord then some (.ok (.symbol ".", '_' :: r))
    else some (.error ⟨"Unexpected character '_'", cs⟩)
  | _ => none

/-- A number, a hexadecimal constant that starts with `0x`, or a single point. -/
def number (afterWord : Bool) (cs : List Char) : Reading Token :=
  match pointBeforeName afterWord cs with
  | some result => result
  | none =>
    let (whole, r) := digits Char.isDigit cs
    match whole, r with
    | ['0'], 'x' :: r =>
      let (ds, r) := digits (fun c => (hexValue? c).isSome) r
      .ok (.quoted .hex (String.ofList ds), r)
    | _, _ =>
      let (point, r) := match r with
        | '.' :: r => (['.'], r)
        | r => ([], r)
      let (fraction, r) := digits Char.isDigit r
      let mantissa := whole ++ point ++ fraction
      if mantissa == ['.'] then .ok (.symbol ".", r)
      else
        let (power, r) := exponent r
        let text := String.ofList (mantissa ++ power)
        match r with
        | 'L' :: r => .ok (.number text true, r)
        | r => .ok (.number text false, r)

/-- The text of a `$$` constant up to the closing `$$`. -/
def untilDollars : List Char → Option (List Char × List Char)
  | [] => none
  | '$' :: '$' :: r => some ([], r)
  | '$' :: c :: r => (untilDollars r).map fun (v, s) => ('$' :: c :: v, s)
  | c :: r => (untilDollars r).map fun (v, s) => (c :: v, s)

/-- The text before the first occurrence of `mark`, and what stands after it. -/
def untilMark (mark : List Char) : List Char → Option (List Char × List Char)
  | [] => none
  | c :: r =>
    if mark.isPrefixOf (c :: r) then some ([], r.drop (mark.length - 1))
    else (untilMark mark r).map fun (v, s) => (c :: v, s)

/-- What a dollar sign opens: a constant between dollar marks or a placeholder. -/
def dollar (r : List Char) : Reading Token :=
  match r with
  | '$' :: r =>
    match untilDollars r with
    | some (v, s) => .ok (.dollar none (String.ofList v), s)
    | none => .error ⟨"Unterminated dollar-quoted string", []⟩
  | r =>
    let belongs := fun c => Text.isAlphanumeric c || c == '_'
    let tag := r.takeWhile belongs
    match r.dropWhile belongs with
    | '$' :: s =>
      match untilMark ('$' :: tag ++ ['$']) s with
      | some (v, s) => .ok (.dollar (some (String.ofList tag)) (String.ofList v), s)
      | none => .error ⟨"Unterminated dollar-quoted, expected $", []⟩
    | s => .ok (.placeholder ("$" ++ String.ofList tag), s)

/-- The text of a delimited name after its opening quote. -/
def delimited (cs : List Char) : Reading Token :=
  match untilQuote '"' false (cs.drop 1) with
  | some (v, r) => .ok (.delimited (String.ofList v), r)
  | none => .error ⟨"Expected close delimiter '\"' before EOF.", cs⟩

/-- Extends what has been read of an operator by the operator characters that follow. -/
def operatorOr (start : String) (known : Option String) (r : List Char) : Reading Token :=
  match r.takeWhile isOperatorChar, known with
  | [], some text => .ok (.symbol text, r)
  | [], none => .error ⟨"Expected a valid binary operator after '" ++ start ++ "'", r⟩
  | cs, _ => .ok (.operator (start ++ String.ofList cs), r.dropWhile isOperatorChar)

/-- A symbol that nothing extends. -/
def fixed (text : String) (r : List Char) : Reading Token :=
  .ok (.symbol text, r)

/-- A symbol that further operator characters turn into an operator without a meaning of its own. -/
def open_ (text : String) (r : List Char) : Reading Token :=
  operatorOr text (some text) r

/-- An operator or a mark of punctuation. The operators `&>` and `?` take one character more with
them, whatever it is. -/
def symbol : List Char → Option (Reading Token)
  | '(' :: r => fixed "(" r
  | ')' :: r => fixed ")" r
  | ',' :: r => fixed "," r
  | ';' :: r => fixed ";" r
  | '[' :: r => fixed "[" r
  | ']' :: r => fixed "]" r
  | '\x7b' :: r => fixed "\x7b" r
  | '\x7d' :: r => fixed "\x7d" r
  | '\\' :: r => fixed "\\" r
  | '+' :: r => fixed "+" r
  | '*' :: r => fixed "*" r
  | '/' :: r => fixed "/" r
  | '-' :: '>' :: '>' :: r => open_ "->>" r
  | '-' :: '>' :: r => open_ "->" r
  | '-' :: r => open_ "-" r
  | '%' :: r => open_ "%" r
  | '|' :: '/' :: r => open_ "|/" r
  | '|' :: '|' :: '/' :: r => open_ "||/" r
  | '|' :: '|' :: r => open_ "||" r
  | '|' :: '&' :: '>' :: r => open_ "|&>" r
  | '|' :: '&' :: r => operatorOr "|&" none r
  | '|' :: '>' :: '>' :: r => open_ "|>>" r
  | '|' :: '>' :: r => operatorOr "|>" none r
  | '|' :: r => open_ "|" r
  | '=' :: '>' :: r => fixed "=>" r
  | '=' :: '=' :: r => fixed "==" r
  | '=' :: r => fixed "=" r
  | '!' :: '=' :: r => fixed "<>" r
  | '!' :: '!' :: r => fixed "!!" r
  | '!' :: '~' :: '*' :: r => fixed "!~*" r
  | '!' :: '~' :: '~' :: '*' :: r => fixed "!~~*" r
  | '!' :: '~' :: '~' :: r => fixed "!~~" r
  | '!' :: '~' :: r => fixed "!~" r
  | '!' :: r => fixed "!" r
  | '<' :: '=' :: '>' :: r => open_ "<=>" r
  | '<' :: '=' :: r => open_ "<=" r
  | '<' :: '>' :: r => open_ "<>" r
  | '<' :: '|' :: r => open_ "<<|" r
  | '<' :: '<' :: '|' :: r => open_ "<<|" r
  | '<' :: '<' :: r => open_ "<<" r
  | '<' :: '-' :: '>' :: r => open_ "<->" r
  | '<' :: '-' :: r => operatorOr "<-" none r
  | '<' :: '^' :: r => open_ "<^" r
  | '<' :: '@' :: r => open_ "<@" r
  | '<' :: r => open_ "<" r
  | '>' :: '=' :: r => open_ ">=" r
  | '>' :: '>' :: r => open_ ">>" r
  | '>' :: '^' :: r => open_ ">^" r
  | '>' :: r => open_ ">" r
  | ':' :: ':' :: r => fixed "::" r
  | ':' :: '=' :: r => fixed ":=" r
  | ':' :: r => fixed ":" r
  | '&' :: '>' :: r => fixed "&>" (r.drop 1)
  | '&' :: '<' :: '|' :: r => fixed "&<|" r
  | '&' :: '<' :: r => open_ "&<" r
  | '&' :: '&' :: r => open_ "&&" r
  | '&' :: r => open_ "&" r
  | '^' :: '@' :: r => fixed "^@" r
  | '^' :: r => fixed "^" r
  | '~' :: '*' :: r => open_ "~*" r
  | '~' :: '=' :: r => open_ "~=" r
  | '~' :: '~' :: '*' :: r => open_ "~~*" r
  | '~' :: '~' :: r => open_ "~~" r
  | '~' :: r => open_ "~" r
  | '#' :: '-' :: r => open_ "#-" r
  | '#' :: '>' :: '>' :: r => open_ "#>>" r
  | '#' :: '>' :: r => open_ "#>" r
  | '#' :: '#' :: r => open_ "##" r
  | '#' :: r => open_ "#" r
  | '@' :: '@' :: r => fixed "@@" r
  | '@' :: '-' :: '@' :: r => fixed "@-@" r
  | '@' :: '-' :: r => operatorOr "@-" none r
  | '@' :: '>' :: r => fixed "@>" r
  | '@' :: '?' :: r => fixed "@?" r
  | '@' :: r => fixed "@" r
  | '?' :: '|' :: '|' :: r => fixed "?||" r
  | '?' :: '|' :: r => fixed "?|" r
  | '?' :: '&' :: r => fixed "?&" r
  | '?' :: '-' :: '|' :: r => fixed "?-|" r
  | '?' :: '-' :: r => fixed "?-" r
  | '?' :: '#' :: r => fixed "?#" r
  | '?' :: r => fixed "?" (r.drop 1)
  | _ => none

/-- A constant introduced by a letter, or the word that starts with it. -/
def introduced (c : Char) (r : List Char) : Option (Reading Token) :=
  match c, r with
  | 'b', '\x27' :: _ | 'B', '\x27' :: _ => some (quoted .bits '\x27' false r)
  | 'b', '"' :: _ | 'B', '"' :: _ => some (quoted .bytes '"' false r)
  | 'n', '\x27' :: _ | 'N', '\x27' :: _ => some (quoted .national '\x27' false r)
  | 'x', '\x27' :: _ | 'X', '\x27' :: _ => some (quoted .hex '\x27' true r)
  | 'e', '\x27' :: s | 'E', '\x27' :: s =>
    match untilEscapedQuote (s.length + 1) s with
    | some (v, s) => some (.ok (.quoted .escaped (String.ofList v), s))
    | none => some (.error ⟨"Unterminated encoded string literal", c :: r⟩)
  | 'u', '&' :: '\x27' :: s | 'U', '&' :: '\x27' :: s =>
    some <| (untilUnicodeQuote (s.length + 1) [] s).map fun (v, s) =>
      (.quoted .unicode (String.ofList v), s)
  | _, _ => none

/-- One token; `afterWord` tells that a word ends directly before it. -/
def token (afterWord : Bool) (c : Char) (r : List Char) : Reading Token :=
  match introduced c r with
  | some result => result
  | none =>
    if c == '\x27' then quoted .plain '\x27' false (c :: r)
    else if c == '"' then delimited (c :: r)
    else if c.isDigit || c == '.' then number afterWord (c :: r)
    else match symbol (c :: r) with
      | some result => result
      | none =>
        if startsWord c then word (c :: r)
        else if c == '$' then dollar r
        else .ok (.stray c, r)

/-- What stands after a comment between slashes and stars, which may hold others; `depth` counts
those that are open beyond the first. -/
def afterComment (depth : Nat) : List Char → Option (List Char)
  | [] => none
  | '/' :: '*' :: r => afterComment (depth + 1) r
  | '*' :: '/' :: r =>
    match depth with
    | 0 => some r
    | d + 1 => afterComment d r
  | _ :: r => afterComment depth r

/-- White space of one character. -/
def isSpace (c : Char) : Bool :=
  c == ' ' || ('\t' ≤ c && c ≤ '\r')

/-- Passes over one piece of white space or one comment, if one stands here. -/
def blank : List Char → Option (Except Misreading (List Char))
  | '-' :: '-' :: r => some (.ok ((r.dropWhile fun c => c != '\n' && c != '\r').drop 1))
  | '/' :: '*' :: r =>
    match afterComment 0 r with
    | some s => some (.ok s)
    | none => some (.error ⟨"Unexpected EOF while in a multi-line comment", []⟩)
  | c :: r => if isSpace c then some (.ok r) else none
  | [] => none

/-- How a message shows a piece of white space: a comment as it is written, a line break or a tab as
itself, and all else as a blank. -/
def gapText : List Char → String
  | '\n' :: _ | '\r' :: _ => "\n"
  | '\t' :: _ => "\t"
  | '-' :: r => "-" ++ String.ofList r
  | '/' :: r => "/" ++ String.ofList r
  | _ => " "

/-- The state between two tokens: the place reached, the first piece of white space that was passed
since the last token, and whether that token is a word that ends here. -/
structure Cursor where
  place : Place
  gap : Option Gap
  afterWord : Bool

/-- The place reached after reading from `cs` to `left`. -/
def placeAt (p : Place) (cs left : List Char) : Place :=
  p.after (cs.take (cs.length - left.length))

/-- Names the fault and the place at which it arose. -/
def fault (p : Place) (cs : List Char) (m : Misreading) : String :=
  m.message ++ (placeAt p cs m.left).text

/-- The upper-case spelling of a bare word. -/
def keyOf : Token → String
  | .word t => Text.upper t
  | _ => ""

/-- Reads all tokens, and last the end of the text; `fuel` bounds the number of steps. -/
def run : Nat → Cursor → List Char → Except String (List Lexeme)
  | 0, at_, _ => .ok [⟨.eof, "", none, at_.gap⟩]
  | _, at_, [] => .ok [⟨.eof, "", none, at_.gap⟩]
  | n + 1, at_, c :: r =>
    match blank (c :: r) with
    | some (.ok left) =>
      let piece := (c :: r).take (r.length + 1 - left.length)
      let gap := at_.gap.getD ⟨gapText piece, at_.place⟩
      run n ⟨at_.place.after piece, some gap, false⟩ left
    | some (.error m) => .error (fault at_.place (c :: r) m)
    | none =>
      match token at_.afterWord c r with
      | .ok (t, left) => do
        let isWord := match t with
          | .word _ | .delimited _ => true
          | _ => false
        let rest ← run n ⟨placeAt at_.place (c :: r) left, none, isWord⟩ left
        return ⟨t, keyOf t, some at_.place, at_.gap⟩ :: rest
      | .error m => .error (fault at_.place (c :: r) m)

end Lexer

/-- The tokens of a text, of which the last one is its end, or the message that says why it has
none. -/
def tokens (text : String) : Except String (List Lexeme) :=
  let cs := text.toList
  Lexer.run (cs.length + 1) ⟨⟨1, 1⟩, none, false⟩ cs

end SqlLayout.Sql
