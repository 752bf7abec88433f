import SqlLayout.Host.Lexer

/-!
The text that a literal of a Rust source stands for, and the literal that stands for a text.
-/

namespace SqlLayout.Host

/-- The character of a sequence after a backslash. -/
def escapedChar : List Char → Char
  | 'x' :: a :: b :: _ => Char.ofNat (hexValue a * 16 + hexValue b)
  | 'u' :: '\x7b' :: r => Char.ofNat ((bracedCode? 0 0 0 r).map (·.1) |>.getD 0)
  | 'n' :: _ => '\n'
  | 'r' :: _ => '\r'
  | 't' :: _ => '\t'
  | '0' :: _ => '\x00'
  | c :: _ => c
  | [] => '\x00'

/-- The characters up to the closing quote. `skip` counts the characters that are still to be passed,
and `folding` tells that blanks are passed over. -/
def unescape (skip : Nat) (folding : Bool) : List Char → List Char
  | [] => []
  | c :: r =>
    if skip > 0 then unescape (skip - 1) folding r
    else if folding && (c == ' ' || c == '\t' || c == '\n' || c == '\r') then unescape 0 true r
    else if c == '"' then []
    else if c == '\r' then '\n' :: unescape 1 false r
    else if c == '\\' then
      match r with
      | '\n' :: _ | '\r' :: _ => unescape 1 true r
      | _ => escapedChar r :: unescape ((textRules.escapeLength? r).getD 1) false r
    else c :: unescape 0 false r

/-- The text of a literal in quotes, cooked or raw. -/
def textOf (literal : String) : String :=
  match literal.toList with
  | 'r' :: cs =>
    let fence := cs.takeWhile (· == '#')
    let body := cs.drop (fence.length + 1)
    let length := (rawEnd? (fun _ => true) fence 0 body).getD 0
    String.ofList (body.take (length - 1 - fence.length))
  | _ :: cs => String.ofList (unescape 0 false cs)
  | [] => ""

/-- Whether a text holds a quote and then `n` hashes. -/
def closesAt (n : Nat) : List Char → Bool
  | [] => false
  | c :: r => (c == '"' && (List.replicate n '#').isPrefixOf r) || closesAt n r

/-- The first number of hashes from `n` on that cannot close a text early. Each number that is too
small takes as many characters of the text, so `fuel`, the length of the text, is enough. -/
def fenceFrom (text : List Char) : Nat → Nat → Nat
  | 0, n => n
  | fuel + 1, n => if closesAt n text then fenceFrom text fuel (n + 1) else n

/-- The number of hashes around a raw text: at least one. -/
def fenceSize (text : List Char) : Nat :=
  fenceFrom text text.length 1

/-- A raw literal for a text. -/
def rawLiteral (text : String) : String :=
  let fence := Text.replicate "#" (fenceSize text.toList)
  "r" ++ fence ++ "\"" ++ text ++ "\"" ++ fence

end SqlLayout.Host
