import SqlLayout.Host.Token
import SqlLayout.Text.Word

/-!
From the characters of a Rust source to its tokens. Each scanner says how many characters its token
takes from the front of the text, if the text starts with such a token.
-/

namespace SqlLayout.Host

/-- Whether a text starts with the given characters. -/
def startsWith (cs : List Char) (s : String) : Bool :=
  s.toList.isPrefixOf cs

/-! ### Blanks and comments -/

/-- The length of the rest of a line, without the line break. -/
def lineLength : List Char → Nat
  | [] => 0
  | '\n' :: _ => 0
  | '\r' :: '\n' :: _ => 0
  | _ :: r => lineLength r + 1

/-- The length of a comment between marks, which may hold comments; `depth` counts those that are
open and `n` the characters before. -/
def commentEnd? (depth n : Nat) : List Char → Option Nat
  | '/' :: '*' :: r => commentEnd? (depth + 1) (n + 2) r
  | '*' :: '/' :: r => if depth ≤ 1 then some (n + 2) else commentEnd? (depth - 1) (n + 2) r
  | _ :: r => commentEnd? depth (n + 1) r
  | [] => none

/-- White space; two marks of direction count as such. -/
def isHostBlank (c : Char) : Bool :=
  Text.isBlank c || c.toNat == 0x200E || c.toNat == 0x200F

/-- The length of a blank or of a comment that documents nothing. -/
def blankLength? (cs : List Char) : Option Nat :=
  if startsWith cs "//" && (!startsWith cs "///" || startsWith cs "////") && !startsWith cs "//!" then
    some (lineLength cs)
  else if startsWith cs "/**/" then some 4
  else if startsWith cs "/*" && (!startsWith cs "/**" || startsWith cs "/***") &&
      !startsWith cs "/*!" then
    commentEnd? 0 0 cs
  else match cs with
    | c :: _ => if isHostBlank c then some 1 else none
    | [] => none

/-- The length of a comment that documents what is around it (`true`) or what follows. -/
def docLength? (cs : List Char) : Option (Nat × Bool) :=
  if startsWith cs "//!" then some (lineLength cs, true)
  else if startsWith cs "/*!" then (commentEnd? 0 0 cs).map (·, true)
  else if startsWith cs "///" && !startsWith cs "////" then some (lineLength cs, false)
  else if startsWith cs "/**" && !startsWith cs "/***" then (commentEnd? 0 0 cs).map (·, false)
  else none

/-- A carriage return that no line feed follows. -/
def hasBareReturn : List Char → Bool
  | '\r' :: '\n' :: r => hasBareReturn r
  | '\r' :: _ => true
  | _ :: r => hasBareReturn r
  | [] => false

/-- The tokens that a comment stands for: an attribute. -/
def docTrees (inner : Bool) : List Tree :=
  [.mark '#' false] ++ (if inner then [.mark '!' false] else []) ++
    [.group .bracket [.word "doc", .mark '=' false, .literal "\"\"" 0 0]]

/-! ### Words -/

/-- The length of a name without a mark in front. -/
def plainWordLength? : List Char → Option Nat
  | c :: r => if Text.isWordStart c then some (1 + (r.takeWhile Text.isWordChar).length) else none
  | [] => none

/-- The length of a name, which may have the mark that makes a name of a keyword. -/
def wordLength? (cs : List Char) : Option Nat :=
  if startsWith cs "r#" then do
    let n ← plainWordLength? (cs.drop 2)
    let text := String.ofList ((cs.drop 2).take n)
    if ["_", "super", "self", "Self", "crate"].contains text then none else some (n + 2)
  else plainWordLength? cs

/-- The length of the word that directly follows a literal. -/
def suffixLength (cs : List Char) : Nat :=
  (plainWordLength? cs).getD 0

/-! ### Literals -/

def isHostHexDigit (c : Char) : Bool :=
  (digit? c).isSome

/-- The value of a digit up to base sixteen. -/
def hexValue (c : Char) : Nat :=
  (digit? c).getD 0

/-- The number of a character between braces, and the length up to the closing brace. `digits` counts
the digits before and `n` the characters. -/
def bracedCode? (value digits n : Nat) : List Char → Option (Nat × Nat)
  | c :: r =>
    if isHostHexDigit c then
      if digits == 6 then none else bracedCode? (value * 16 + hexValue c) (digits + 1) (n + 1) r
    else if digits == 0 then none
    else if c == '_' then bracedCode? value digits (n + 1) r
    else if c == '\x7d' && (value < 0xD800 || (0xE000 ≤ value && value < 0x110000)) then
      some (value, n + 1)
    else none
  | [] => none

/-- What a literal may hold: its plain characters and the sequences after a backslash. A sequence is
given by its length; the zero character is `none` where it may not stand. -/
structure LiteralRules where
  isPlain : Char → Bool
  isHexPair : Char → Char → Bool
  letters : List Char
  codes : Option (Nat → Bool)

def textRules : LiteralRules where
  isPlain _ := true
  isHexPair a b := '0' ≤ a && a ≤ '7' && isHostHexDigit b
  letters := ['n', 'r', 't', '\\', '\x27', '"', '0']
  codes := some fun _ => true

def byteRules : LiteralRules where
  isPlain c := c.toNat < 128
  isHexPair a b := isHostHexDigit a && isHostHexDigit b
  letters := ['n', 'r', 't', '\\', '0', '\x27', '"']
  codes := none

def cTextRules : LiteralRules where
  isPlain c := c.toNat != 0
  isHexPair a b := isHostHexDigit a && isHostHexDigit b && !(a == '0' && b == '0')
  letters := ['n', 'r', 't', '\\', '\x27', '"']
  codes := some (· != 0)

/-- The length of a sequence after a backslash, line breaks apart. -/
def LiteralRules.escapeLength? (rules : LiteralRules) : List Char → Option Nat
  | 'x' :: a :: b :: _ => if rules.isHexPair a b then some 3 else none
  | 'u' :: '\x7b' :: r => do
    let allowed ← rules.codes
    let (code, n) ← bracedCode? 0 0 0 r
    if allowed code then some (n + 2) else none
  | c :: _ => if rules.letters.contains c then some 1 else none
  | [] => none

/-- The length of a text up to its closing quote. `skip` counts the characters of a sequence that are
still to be passed, and `folding` tells that a backslash has ended the line and blanks are passed
over. -/
def LiteralRules.textEnd? (rules : LiteralRules) (skip : Nat) (folding : Bool) (n : Nat) :
    List Char → Option Nat
  | [] => none
  | c :: r =>
    if skip > 0 then rules.textEnd? (skip - 1) folding (n + 1) r
    else if c == '\r' then
      if r.head? == some '\n' then rules.textEnd? 1 folding (n + 1) r else none
    else if folding && (c == ' ' || c == '\t' || c == '\n') then rules.textEnd? 0 true (n + 1) r
    else if c == '"' then some (n + 1)
    else if c == '\\' then
      match r with
      | '\n' :: _ => rules.textEnd? 1 true (n + 1) r
      | '\r' :: '\n' :: _ => rules.textEnd? 2 true (n + 1) r
      | _ =>
        match rules.escapeLength? r with
        | some k => rules.textEnd? k false (n + 1) r
        | none => none
    else if rules.isPlain c then rules.textEnd? 0 false (n + 1) r
    else none

/-- The length of a raw text up to the fence that closes it. -/
def rawEnd? (isPlain : Char → Bool) (fence : List Char) (n : Nat) : List Char → Option Nat
  | [] => none
  | '\r' :: '\n' :: r => rawEnd? isPlain fence (n + 2) r
  | c :: r =>
    if c == '"' && fence.isPrefixOf r then some (n + 1 + fence.length)
    else if c == '\r' then none
    else if isPlain c then rawEnd? isPlain fence (n + 1) r
    else none

/-- The length of a raw text after its first letters. -/
def rawLength? (isPlain : Char → Bool) (cs : List Char) : Option Nat :=
  let fence := cs.takeWhile (· == '#')
  match cs.drop fence.length with
  | '"' :: r => if 255 < fence.length then none else rawEnd? isPlain fence (fence.length + 1) r
  | _ => none

/-- The length of a text in quotes, cooked or raw, after the given letter. -/
def quotedLength? (rules : LiteralRules) (letter : String) (cs : List Char) : Option Nat :=
  if startsWith cs (letter ++ "\"") then
    rules.textEnd? 0 false (letter.length + 1) (cs.drop (letter.length + 1))
  else if startsWith cs (letter ++ "r") then
    (rawLength? rules.isPlain (cs.drop (letter.length + 1))).map (· + letter.length + 1)
  else none

/-- The length of a character in single quotes, or of the sequence that stands for it. -/
def LiteralRules.oneLength? (rules : LiteralRules) : List Char → Option Nat
  | '\\' :: e =>
    (match e with
      | 'x' :: _ | 'u' :: _ => rules.escapeLength? e
      | c :: _ => if ['n', 'r', 't', '\\', '0', '\x27', '"'].contains c then some 1 else none
      | [] => none).map (· + 1)
  | c :: _ => if rules.isPlain c then some 1 else none
  | [] => none

/-- The length of one character in single quotes after the given letter. -/
def characterLength? (rules : LiteralRules) (letter : String) (cs : List Char) : Option Nat := do
  let quote := letter ++ "'"
  if !startsWith cs quote then none
  else
    let r := cs.drop quote.length
    let n ← rules.oneLength? r
    match r.drop n with
    | '\x27' :: _ => some (quote.length + n + 1)
    | _ => none

def isDecimalPart (c : Char) : Bool :=
  c.isDigit || c == '_'

/-- The length of an exponent after its letter: an optional sign and digits, of which there must be
one. -/
def exponentLength? (cs : List Char) : Option Nat :=
  let blanks := (cs.takeWhile (· == '_')).length
  let r := cs.drop blanks
  let signs := match r with
    | c :: _ => if c == '+' || c == '-' then 1 else 0
    | [] => 0
  let ds := (r.drop signs).takeWhile isDecimalPart
  if ds.any Char.isDigit then some (blanks + signs + ds.length) else none

/-- The length of the digits of a number with a point or an exponent. -/
def floatDigitsLength? (cs : List Char) : Option Nat :=
  let whole := (cs.takeWhile isDecimalPart).length
  if !cs.head?.any Char.isDigit then none
  else match cs.drop whole with
    | '.' :: r =>
      if r.head?.any fun c => c == '.' || Text.isWordStart c then none
      else
        let part := (r.takeWhile isDecimalPart).length
        let n := whole + 1 + part
        match r.drop part with
        | c :: e => if c == 'e' || c == 'E' then
            some (match exponentLength? e with
              | some k => n + 1 + k
              | none => n)
          else some n
        | [] => some n
    | c :: e => if c == 'e' || c == 'E' then (exponentLength? e).map (whole + 1 + ·) else none
    | [] => none

/-- The length of the digits of a whole number. -/
def integerDigitsLength? (cs : List Char) : Option Nat :=
  let base := baseOf cs
  let lead := if base == 10 then 0 else 2
  let ds := (cs.drop lead).takeWhile fun c =>
    c == '_' || c.isDigit || (isHostHexDigit c && hexValue c < base)
  if ds.any fun c => c.isDigit && base ≤ hexValue c then none
  else if base == 10 && ds.head? == some '_' then none
  else if ds.any (· != '_') then some (lead + ds.length)
  else none

/-- A number takes the word that follows it, after which no word may go on. -/
def numberLength? (digits : List Char → Option Nat) (cs : List Char) : Option Nat := do
  let n ← digits cs
  let n := n + suffixLength (cs.drop n)
  if (cs.drop n).head?.any Text.isWordChar then none else some n

/-- The length of a literal. -/
def literalLength? (cs : List Char) : Option Nat :=
  let suffixed (n : Option Nat) := n.map fun n => n + suffixLength (cs.drop n)
  suffixed (quotedLength? textRules "" cs) <|>
    suffixed (quotedLength? byteRules "b" cs) <|>
    suffixed (quotedLength? cTextRules "c" cs) <|>
    suffixed (characterLength? byteRules "b" cs) <|>
    suffixed (characterLength? textRules "" cs) <|>
    numberLength? floatDigitsLength? cs <|>
    numberLength? integerDigitsLength? cs

/-! ### Tokens -/

/-- A character that is a mark. -/
def isMarkChar (c : Char) : Bool :=
  "~!@#$%^&*-=+|;:,<.>/?'".toList.contains c

/-- Whether a mark comes next; the start of a comment is none. -/
def startsWithMark (cs : List Char) : Bool :=
  cs.head?.any isMarkChar && !startsWith cs "//" && !startsWith cs "/*"

/-- The mark at the front. A quote is a mark only in front of a lifetime. -/
def mark? (cs : List Char) : Option Tree :=
  match cs with
  | '\x27' :: r => do
    let n ← wordLength? r
    match r.drop n with
    | '\x27' :: _ => none
    | '#' :: _ => if startsWith r "r#" then some (.mark '\x27' true) else none
    | _ => some (.mark '\x27' true)
  | c :: r => if startsWithMark cs then some (.mark c (startsWithMark r)) else none
  | [] => none

/-- The beginnings of literals that do not start a name. -/
def literalStarts : List String :=
  ["r\"", "r#\"", "r##", "b\"", "b'", "br\"", "br#", "c\"", "cr\"", "cr#"]

/-- The token at the front and its length; `offset` is its place. -/
def leaf? (offset : Nat) (cs : List Char) : Option (Tree × Nat) :=
  match literalLength? cs with
  | some n => some (.literal (String.ofList (cs.take n)) offset (offset + n), n)
  | none =>
    match mark? cs with
    | some t => some (t, 1)
    | none =>
      if literalStarts.any (startsWith cs) then none
      else (wordLength? cs).map fun n => (.word (String.ofList (cs.take n)), n)

/-- A bracket or a token. -/
inductive Lexeme
  | opening (delimiter : Delimiter)
  | closing (delimiter : Delimiter)
  | leaf (tree : Tree)

/-- The brackets. -/
def brackets : List (Char × Lexeme) :=
  [('(', .opening .parenthesis), ('[', .opening .bracket), ('\x7b', .opening .brace),
    (')', .closing .parenthesis), (']', .closing .bracket), ('\x7d', .closing .brace)]

/-- The text that stands for a faulty token. It is a literal by itself. -/
def faultyToken : String := "(/*ERROR*/)"

/-- What stands at the front of a text that is not empty, and its length; a blank stands for
nothing. -/
def lexemes? (offset : Nat) (cs : List Char) : Option (List Lexeme × Nat) :=
  match blankLength? cs with
  | some n => some ([], n)
  | none =>
    match docLength? cs with
    | some (n, inner) =>
      if hasBareReturn (cs.take n) then none else some ((docTrees inner).map .leaf, n)
    | none =>
      if startsWith cs faultyToken then
        let n := faultyToken.length
        some ([.leaf (.literal faultyToken offset (offset + n))], n)
      else match cs.head?.bind (brackets.lookup ·) with
      | some l => some ([l], 1)
      | none => (leaf? offset cs).map fun (t, n) => ([.leaf t], n)

/-- The lexemes of a text, the last one first. Every turn takes at least one character, so `fuel`, the
length of the text, is enough. -/
def lexFrom : Nat → Nat → List Lexeme → List Char → Option (List Lexeme)
  | _, _, acc, [] => some acc
  | 0, _, _, _ => none
  | fuel + 1, offset, acc, cs => do
    let (ls, n) ← lexemes? offset cs
    lexFrom fuel (offset + n) (ls.reverse ++ acc) (cs.drop n)

/-- Groups the lexemes by their brackets. `outer` holds the groups around, each with the tokens that
stand in front of it in reverse order. -/
def groupLexemes (outer : List (Delimiter × List Tree)) (trees : List Tree) :
    List Lexeme → Option (List Tree)
  | [] => if outer.isEmpty then some trees.reverse else none
  | .opening d :: r => groupLexemes ((d, trees) :: outer) [] r
  | .closing d :: r =>
    match outer with
    | (e, before) :: outer =>
      if d == e then groupLexemes outer (.group d trees.reverse :: before) r else none
    | [] => none
  | .leaf t :: r => groupLexemes outer (t :: trees) r

/-- The token trees of a text, if all of it consists of tokens and the brackets match. A byte order
mark in front is passed over. -/
def trees? (text : List Char) : Option (List Tree) := do
  let start := if text.head? == some '\uFEFF' then 1 else 0
  let ls ← lexFrom text.length start [] (text.drop start)
  groupLexemes [] [] ls.reverse

end SqlLayout.Host
