import SqlLayout.Toml.Double
import SqlLayout.Toml.Reader

/-!
Keys, strings, numbers and points in time, arrays and inline tables.
-/

namespace SqlLayout.Toml.Reader

/-! ### Blanks and line ends -/

def isTomlBlank (c : Char) : Bool :=
  c == ' ' || c == '\t'

/-- The characters of a comment. -/
def isCommentChar (c : Char) : Bool :=
  c == '\t' || (0x20 ≤ c.toNat && c.toNat ≠ 0x7F)

def blanks : Reader Unit := do
  let _ ← takeWhile isTomlBlank

def newline : Reader Unit :=
  orElse (char '\n') do
    char '\r'
    char '\n'

def comment : Reader Unit := do
  char '#'
  let _ ← takeWhile isCommentChar

def lineEnd : Reader Unit :=
  orElse newline eof

/-- What may stand after a value on its line. -/
def lineTrailing : Reader Unit := do
  blanks
  let _ ← option comment
  lineEnd

/-- Blanks, comments and line breaks. -/
def blankLines : Reader Unit := do
  let _ ← many do
    orElse (do let _ ← takeSome isTomlBlank) (orElse newline do
      comment
      newline)

/-! ### Strings -/

def isHexDigit (c : Char) : Bool :=
  c.isDigit || ('a' ≤ c && c ≤ 'f') || ('A' ≤ c && c ≤ 'F')

/-- The value of a digit up to base sixteen. -/
def digitValue (c : Char) : Nat :=
  if c.isDigit then c.toNat - 48 else c.toLower.toNat - 87

def numberIn (base : Nat) (ds : List Char) : Nat :=
  ds.foldl (fun n c => n * base + digitValue c) 0

/-- A character by its number in `n` hexadecimal digits. -/
def hexEscape (n : Nat) : Reader Char := do
  let start ← offset
  let ds ← takeUpTo n isHexDigit
  if ds.length ≠ n then failAt start
  else
    let code := numberIn 16 ds
    if code < 0xD800 || (0xE000 ≤ code && code < 0x110000) then return Char.ofNat code
    else refuseAt start "value is out of range"

/-- The letters that stand for a character after a backslash. -/
def escapeLetters : List (Char × Char) :=
  [('b', '\x08'), ('f', '\x0c'), ('n', '\n'), ('r', '\r'), ('t', '\t'), ('\\', '\\'), ('"', '"')]

/-- A character after a backslash. One that has no meaning there is refused behind its first byte, or
in front of it if it has more. -/
def escaped : Reader Char := do
  char '\\'
  let before ← offset
  let c ← satisfy fun _ => true
  let after ← offset
  match c with
  | 'u' => label "unicode 4-digit hex code" (final (hexEscape 4))
  | 'U' => label "unicode 8-digit hex code" (final (hexEscape 8))
  | c =>
    match escapeLetters.lookup c with
    | some d => return d
    | none =>
      expecting ["`b`", "`f`", "`n`", "`r`", "`t`", "`u`", "`U`", "`\\`", "`\"`"]
        (label "escape sequence" (final (failAt (if c.utf8Size == 1 then after else before))))

/-- The characters that stand for themselves between double quotes. -/
def isBasicChar (c : Char) : Bool :=
  isCommentChar c && c != '"' && c != '\\'

def basicString : Reader String := do
  char '"'
  let parts ← many (orElse (takeSome isBasicChar) do return [← escaped])
  label "basic string" (final (char '"'))
  return String.ofList parts.flatten

/-- The characters that stand for themselves between single quotes. -/
def isLiteralChar (c : Char) : Bool :=
  isCommentChar c && c != '\x27'

def literalString : Reader String :=
  label "literal string" do
    char '\x27'
    final do
      let cs ← takeWhile isLiteralChar
      char '\x27'
      return String.ofList cs

/-- A backslash at the end of a line, with the blank lines after it. -/
def escapedNewline : Reader Unit := do
  char '\\'
  blanks
  newline
  let _ ← many (orElse (do let _ ← takeSome isTomlBlank) newline)

/-- Up to two quotes before what `next` reads. -/
def innerQuotes (quote : Char) (next : Reader Unit) : Reader (List Char) := do
  let peekNext : Reader Unit := fun c => (next c).map fun _ => ((), c)
  orElse
    (do
      char quote
      char quote
      peekNext
      return [quote, quote])
    (do
      char quote
      peekNext
      return [quote])

/-- The text between three quotes of a kind; `part` reads a piece without such a quote. -/
def longBody (quote : Char) (part : Reader (List Char)) : Reader (List Char) := do
  let first ← many part
  let more ← many do
    let quotes ← innerQuotes quote (do let _ ← part)
    return quotes ++ (← many part).flatten
  let last ← option (innerQuotes quote (literal (String.ofList [quote, quote, quote])))
  return first.flatten ++ more.flatten ++ last.getD []

/-- A string between three quotes of a kind. -/
def longString (name : String) (quote : Char) (part : Reader (List Char)) : Reader String := do
  let fence := String.ofList [quote, quote, quote]
  literal fence
  let _ ← option newline
  label name (final do
    let cs ← longBody quote part
    literal fence
    return String.ofList cs)

def longBasicString : Reader String :=
  longString "multiline basic string" '"'
    (orElse (takeSome isBasicChar)
      (orElse (do
          escapedNewline
          return [])
        (orElse (do return [← escaped]) (do
          newline
          return ['\n']))))

def longLiteralString : Reader String :=
  longString "multiline literal string" '\x27'
    (orElse (takeSome isLiteralChar) (do
      newline
      return ['\n']))

def string : Reader String :=
  orElse longBasicString (orElse basicString (orElse longLiteralString literalString))

/-! ### Keys -/

def isKeyChar (c : Char) : Bool :=
  c.isAlphanum || c == '-' || c == '_'

/-- One part of a key. -/
def simpleKey : Reader Key := do
  let start ← offset
  let before ← get
  let text ← match ← lookAhead 1 with
    | ['"'] => basicString
    | ['\x27'] => literalString
    | [] => failHere
    | _ => do pure (String.ofList (← takeSome isKeyChar))
  let stop ← offset
  let after ← get
  let spelling := String.ofList (before.rest.take (before.rest.length - after.rest.length))
  return ⟨text, spelling, ⟨start, stop⟩⟩

/-- How deep values and keys may nest. -/
def nestingLimit : Nat := 80

/-- A key of one or more parts with points between them. -/
def key : Reader (List Key) := do
  let start ← offset
  let parts ← label "key" (separated
    (do
      blanks
      let k ← simpleKey
      blanks
      return k)
    (char '.'))
  if nestingLimit ≤ parts.length then refuseAt start "recursion limit exceeded"
  else return parts

/-! ### Numbers and points in time -/

def isOneToNine (c : Char) : Bool :=
  '1' ≤ c && c ≤ '9'

/-- Digits of a kind with single underscores between them. -/
def digitsWith (p : Char → Bool) : Reader Unit := do
  let _ ← satisfy p
  let _ ← many (orElse (do let _ ← satisfy p) do
    char '_'
    let _ ← expecting ["digit"] (final (satisfy p)))

def sign : Reader Unit := do
  let _ ← option (satisfy fun c => c == '+' || c == '-')

def decimalInteger : Reader Unit :=
  label "integer" do
    sign
    orElse
      (do
        let _ ← satisfy isOneToNine
        let _ ← many (orElse (do let _ ← satisfy Char.isDigit) do
          char '_'
          let _ ← expecting ["digit"] (final (satisfy Char.isDigit))))
      (do let _ ← satisfy Char.isDigit)

/-- The value of digits that fits into 64 bits with a sign. -/
def fitting (start : Nat) (n : Int) : Reader Int :=
  if Int64.maxValue.toInt < n then final (refuseAt start "number too large to fit in target type")
  else if n < Int64.minValue.toInt then final (refuseAt start "number too small to fit in target type")
  else return n

/-- A whole number after a mark that gives its base. -/
def basedInteger (name mark : String) (base : Nat) (p : Char → Bool) : Reader Int :=
  final do
    let start ← offset
    let ds ← label name do
      literal mark
      final (taken (digitsWith p))
    fitting start (numberIn base (ds.filter (· != '_')))

def integer : Reader Int := do
  match ← lookAhead 2 with
  | ['0', 'x'] => basedInteger "hexadecimal integer" "0x" 16 isHexDigit
  | ['0', 'o'] => basedInteger "octal integer" "0o" 8 fun c => '0' ≤ c && c ≤ '7'
  | ['0', 'b'] => basedInteger "binary integer" "0b" 2 fun c => c == '0' || c == '1'
  | _ =>
    let start ← offset
    let cs ← taken decimalInteger
    let n : Nat := numberIn 10 (cs.filter Char.isDigit)
    fitting start (if cs.head? == some '-' then -n else n)

def exponent : Reader Unit := do
  let _ ← satisfy fun c => c == 'e' || c == 'E'
  sign
  final (digitsWith Char.isDigit)

def fraction : Reader Unit := do
  char '.'
  expecting ["digit"] (final (digitsWith Char.isDigit))

/-- A number that is not whole, as text. One that is too large is refused; below zero it counts as
infinite. -/
def float : Reader String :=
  label "floating-point number" (orElse
    (do
      let start ← offset
      let cs ← taken do
        decimalInteger
        orElse exponent do
          fraction
          let _ ← option exponent
      let text := String.ofList (cs.filter (· != '_'))
      if cs.head? != some '-' && (Decimal.ofText text).toDouble?.isNone then final (failAt start)
      else return text)
    (do
      let cs ← taken do
        sign
        orElse (literal "inf") (literal "nan")
      return String.ofList cs))

/-- Exactly `n` digits whose value is in a range. -/
def digitsIn (n low high : Nat) : Reader Nat := do
  let start ← offset
  let ds ← takeUpTo n Char.isDigit
  if ds.length ≠ n then failAt start
  else
    let v := numberIn 10 ds
    if low ≤ v && v ≤ high then return v else refuseAt start "value is out of range"

def daysIn (year month : Nat) : Nat :=
  if month == 2 then
    if year % 4 == 0 && (year % 100 != 0 || year % 400 == 0) then 29 else 28
  else if [4, 6, 9, 11].contains month then 30
  else 31

def date : Reader Unit := do
  let year ← digitsIn 4 0 9999
  char '-'
  final do
    let month ← digitsIn 2 1 12
    char '-'
    let start ← offset
    let day ← digitsIn 2 1 31
    if daysIn year month < day then refuseAt start "value is out of range"

def time : Reader Unit := do
  let _ ← digitsIn 2 0 23
  char ':'
  final do
    let _ ← digitsIn 2 0 59
    char ':'
    let _ ← digitsIn 2 0 60
    let _ ← option do
      char '.'
      let _ ← takeSome Char.isDigit

def timeOffset : Reader Unit :=
  label "time offset" (orElse
    (do let _ ← satisfy fun c => c == 'Z' || c == 'z')
    (do
      let _ ← satisfy fun c => c == '+' || c == '-'
      final do
        let _ ← digitsIn 2 0 23
        char ':'
        let _ ← digitsIn 2 0 59))

/-- A point in time, as text. -/
def dateTime : Reader String := do
  let cs ← taken (orElse
    (label "date-time" do
      date
      let _ ← option do
        let _ ← satisfy fun c => c == 'T' || c == 't' || c == ' '
        time
        let _ ← option timeOffset)
    (label "time" time))
  return String.ofList cs

/-! ### Values -/

/-- The causes for which a key is refused. -/
inductive KeyFault
  | duplicate (key : String) (table : Option (List Key))
  | notATable (path : List Key) (typeName : String)

/-- The text of a refusal. -/
def KeyFault.text : KeyFault → String
  | .duplicate key none => "duplicate key `" ++ key ++ "`"
  | .duplicate key (some []) => "duplicate key `" ++ key ++ "` in document root"
  | .duplicate key (some path) =>
    "duplicate key `" ++ key ++ "` in table `" ++ Text.joinWith "." (path.map (·.spelling)) ++ "`"
  | .notATable path name =>
    "dotted key `" ++ Text.joinWith "." (path.map (·.spelling)) ++
      "` attempted to extend non-table type (" ++ name ++ ")"

/-- Puts a value under a dotted key of an inline table. `passed` are the parts of the key before
`path`. -/
def insertInline (entries : List Entry) (passed path : List Key) (last : Key) (node : Node) :
    Except KeyFault (List Entry) :=
  match path with
  | [] =>
    match lookup last.text entries with
    | some _ => .error (.duplicate last.text none)
    | none => .ok (entries ++ [⟨last, node⟩])
  | k :: r =>
    match lookup k.text entries with
    | none => do
      let inner ← insertInline [] (passed ++ [k]) r last node
      return entries ++ [⟨k, .table ⟨true, true, true⟩ inner none⟩]
    | some (.table kind inner span) =>
      if kind.isImplicit then do
        let inner ← insertInline inner (passed ++ [k]) r last node
        return replace k.text (.table kind inner span) entries
      else .error (.duplicate k.text none)
    | some v => .error (.notATable (passed ++ [k]) v.typeName)

/-- The table of pairs of dotted keys and values, in their order. -/
def inlineEntries (pairs : List (List Key × Key × Node)) : Except KeyFault (List Entry) :=
  pairs.foldlM (fun entries (path, last, node) =>
    match path, lookup last.text entries with
    | [], some (.table kind _ _) =>
      if kind.isDotted then .error (.duplicate last.text none)
      else insertInline entries [] path last node
    | _, _ => insertInline entries [] path last node) []

/-- The sign between a key and its value. -/
def keySign : Reader Unit :=
  expecting ["`.`", "`=`"] (char '=')

/-- A key without its last part, and the last part. -/
def splitKey (ks : List Key) : List Key × Key :=
  (ks.dropLast, ks.getLast?.getD default)

/-- The words with which a text that is no value might have started. -/
def notAString {α : Type} (p : Reader α) : Reader α :=
  expecting ["`\"`", "`'`"] (label "string" p)

/-- Reads a word that its first letter announces. -/
def keyword (text : String) : Reader Unit :=
  notAString (final (literal text))

/-- An array after its opening bracket; `value` reads its items. -/
def arrayItems (value : Reader Node) : Reader (List Node) :=
  final do
    let items ← if (← lookAhead 1) == [']'] then pure [] else do
      let items ← option (separated
        (do
          blankLines
          let v ← value
          blankLines
          return v)
        (char ','))
      let items := items.getD []
      unless items.isEmpty do
        let _ ← option (char ',')
      blankLines
      pure items
    expecting ["`]`"] (label "array" (char ']'))
    return items

/-- An inline table after its opening brace; `value` reads its values. -/
def inlineItems (value : Reader Node) : Reader (List Entry) :=
  final do
    let start ← offset
    let pairs ← option (separated
      (do
        let k ← key
        final do
          keySign
          blanks
          let v ← value
          blanks
          let (path, last) := splitKey k
          return (path, last, v))
      (char ','))
    blanks
    match inlineEntries (pairs.getD []) with
    | .error fault => refuseAt start fault.text
    | .ok entries =>
      expecting ["`\x7d`"] (label "inline table" (char '\x7d'))
      return entries

/-- A value; `depth` bounds the nesting of arrays and inline tables. -/
def value (depth : Nat) : Reader Node := do
  let start ← offset
  let spanned (make : Span → Node) : Reader Node := do return make ⟨start, ← offset⟩
  match ← lookAhead 1 with
  | [] => failHere
  | c :: _ =>
    if c == '"' || c == '\x27' then
      let t ← string
      spanned (.string t)
    else if c == '[' || c == '\x7b' then
      match depth with
      | 0 => final (refuseAt start "recursion limit exceeded")
      | depth + 1 =>
        char c
        if c == '[' then
          let items ← arrayItems (value depth)
          spanned (.array items)
        else
          let entries ← inlineItems (value depth)
          spanned fun s => .table ⟨true, false, false⟩ entries (some s)
    else if c == '+' || c == '-' || c.isDigit then
      let make ← orElse (do return Node.dateTime (← dateTime))
        (orElse (do return Node.float (← float)) do return Node.integer (← integer))
      spanned make
    else match c with
      | '_' =>
        let n ← expecting ["leading digit"] integer
        spanned (.integer n)
      | '.' =>
        let t ← expecting ["leading digit"] float
        spanned (.float t)
      | 't' =>
        keyword "true"
        spanned (.boolean true)
      | 'f' =>
        keyword "false"
        spanned (.boolean false)
      | 'i' =>
        notAString (literal "inf")
        spanned (.float "inf")
      | 'n' =>
        notAString (literal "nan")
        spanned (.float "nan")
      | _ => notAString failHere

end SqlLayout.Toml.Reader
