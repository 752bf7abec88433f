import SqlLayout.Text.Basic
import SqlLayout.Toml.Tree

/-!
Readers of characters that know how far they came. A failure carries the place where reading stopped
and what was due there; a final failure is not answered by trying another reader.
-/

namespace SqlLayout.Toml

/-- Why a document cannot be read: what is wrong there, what was due, and the cause. -/
structure Failure where
  isFinal : Bool
  offset : Nat
  label : Option String := none
  expected : List String := []
  cause : Option String := none
  deriving Repr, Inhabited

/-- The text of a failure, without its place. -/
def Failure.text (f : Failure) : String :=
  Text.joinWith "\n"
    ((f.label.map ("invalid " ++ ·)).toList ++
      (if f.expected.isEmpty then [] else ["expected " ++ Text.commas f.expected]) ++ f.cause.toList)

/-- The characters that are left and the number of bytes before them. -/
structure Cursor where
  rest : List Char
  offset : Nat
  deriving Repr, Inhabited

/-- A reader of values of type `α`. -/
abbrev Reader := StateT Cursor (Except Failure)

namespace Reader

variable {α β : Type}

/-- Fails at an offset, without a word about what was due. -/
def failAt (offset : Nat) : Reader α :=
  fun _ => .error { isFinal := false, offset }

/-- Fails here. -/
def failHere : Reader α :=
  fun c => .error { isFinal := false, offset := c.offset }

/-- Fails at an offset for a given cause. -/
def refuseAt (offset : Nat) (cause : String) : Reader α :=
  fun _ => .error { isFinal := false, offset, cause := some cause }

/-- The number of bytes that have been read. -/
def offset : Reader Nat :=
  fun c => .ok (c.offset, c)

/-- The next characters, without reading them. -/
def lookAhead (n : Nat) : Reader (List Char) :=
  fun c => .ok (c.rest.take n, c)

/-- Reads the next character if it satisfies a condition. -/
def satisfy (p : Char → Bool) : Reader Char
  | ⟨c :: r, n⟩ => if p c then .ok (c, ⟨r, n + c.utf8Size⟩) else .error { isFinal := false, offset := n }
  | ⟨[], n⟩ => .error { isFinal := false, offset := n }

/-- Reads the given character. -/
def char (c : Char) : Reader Unit := do
  let _ ← satisfy (· == c)

/-- The number of bytes of several characters. -/
def bytes (cs : List Char) : Nat :=
  cs.foldl (fun n c => n + c.utf8Size) 0

/-- Reads the given text, or nothing of it. -/
def literal (text : String) : Reader Unit :=
  fun c =>
    let cs := text.toList
    if cs.isPrefixOf c.rest then .ok ((), ⟨c.rest.drop cs.length, c.offset + bytes cs⟩)
    else .error { isFinal := false, offset := c.offset }

/-- Reads the longest run of characters that satisfy a condition, at most `most` of them. -/
def takeUpTo (most : Nat) (p : Char → Bool) : Reader (List Char) :=
  fun c =>
    let cs := (c.rest.take most).takeWhile p
    .ok (cs, ⟨c.rest.drop cs.length, c.offset + bytes cs⟩)

/-- Reads the longest run of characters that satisfy a condition. -/
def takeWhile (p : Char → Bool) : Reader (List Char) :=
  fun c =>
    let cs := c.rest.takeWhile p
    .ok (cs, ⟨c.rest.drop cs.length, c.offset + bytes cs⟩)

/-- Reads a run of at least one such character. -/
def takeSome (p : Char → Bool) : Reader (List Char) := do
  let cs ← takeWhile p
  if cs.isEmpty then failHere else return cs

/-- Succeeds at the end of the text only. -/
def eof : Reader Unit :=
  fun c => if c.rest.isEmpty then .ok ((), c) else .error { isFinal := false, offset := c.offset }

/-- Makes a failure final. -/
def final (p : Reader α) : Reader α :=
  fun c => (p c).mapError fun f => { f with isFinal := true }

/-- Names what is being read in a failure; the innermost name counts. -/
def label (name : String) (p : Reader α) : Reader α :=
  fun c => (p c).mapError fun f => { f with label := f.label.or (some name) }

/-- Adds to a failure what was due. -/
def expecting (what : List String) (p : Reader α) : Reader α :=
  fun c => (p c).mapError fun f => { f with expected := f.expected ++ what }

/-- The result of a reader if it succeeds; a failure that is not final reads nothing. -/
def option (p : Reader α) : Reader (Option α) :=
  fun c =>
    match p c with
    | .ok (a, c') => .ok (some a, c')
    | .error f => if f.isFinal then .error f else .ok (none, c)

/-- The first reader, or the second one if the first fails and the failure is not final. -/
def orElse (p q : Reader α) : Reader α := do
  match ← option p with
  | some a => return a
  | none => q

/-- The characters that a reader passes over. -/
def taken (p : Reader Unit) : Reader (List Char) :=
  fun c =>
    match p c with
    | .ok (_, c') => .ok (c.rest.take (c.rest.length - c'.rest.length), c')
    | .error f => .error f

/-- Repeats a reader that reads something each time; `fuel` bounds the number of turns. -/
def repeated (p : Reader α) : Nat → Reader (List α)
  | 0 => return []
  | fuel + 1 => do
    match ← option p with
    | some a => return a :: (← repeated p fuel)
    | none => return []

/-- Repeats a reader as often as it succeeds. -/
def many (p : Reader α) : Reader (List α) :=
  fun c => repeated p (c.rest.length + 1) c

/-- A value, then more of them, each after a separator. A separator without a value after it is not
read. -/
def separated (p : Reader α) (separator : Reader Unit) : Reader (List α) := do
  let first ← p
  return first :: (← many do
    separator
    p)

end Reader

end SqlLayout.Toml
