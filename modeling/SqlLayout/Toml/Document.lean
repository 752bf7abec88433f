import SqlLayout.Toml.Value

/-!
Documents: tables that grow line by line. The table under the last header is kept apart from the
rest until the next header, or the end, puts it into its place.
-/

namespace SqlLayout.Toml

open Reader (KeyFault)

/-- A document as far as it has been read. -/
structure Draft where
  root : List Entry := []
  /-- The kind, the entries and the place of the table under the last header. -/
  kind : TableKind := {}
  current : List Entry := []
  span : Option Span := none
  /-- The path of the last header; empty before the first one. -/
  path : List Key := []
  /-- The last header starts one more table of an array. -/
  isArray : Bool := false
  deriving Inhabited

/-- Changes the entries of the table at a path. Tables that are not there come to be; an array of
tables stands for its last table. `passed` are the parts of the path before. -/
def modifyAt {α : Type} (dotted : Bool) (f : TableKind → List Entry → Except KeyFault (List Entry × α))
    (passed : List Key) : List Key → TableKind → List Entry → Except KeyFault (List Entry × α)
  | [], kind, entries => f kind entries
  | k :: r, _, entries =>
    match lookup k.text entries with
    | none => do
      let kind : TableKind := ⟨false, true, dotted⟩
      let (inner, a) ← modifyAt dotted f (passed ++ [k]) r kind []
      return (entries ++ [⟨k, .table kind inner none⟩], a)
    | some (.table kind inner span) =>
      if kind.isInline then .error (.notATable (passed ++ [k]) "inline table")
      else if dotted && !kind.isImplicit then .error (.duplicate k.text none)
      else do
        let (inner, a) ← modifyAt dotted f (passed ++ [k]) r kind inner
        return (replace k.text (.table kind inner span) entries, a)
    | some (.tables items span) =>
      match items.getLast? with
      | some (.table kind inner s) => do
        let (inner, a) ← modifyAt dotted f (passed ++ [k]) r kind inner
        return (replace k.text (.tables (items.dropLast ++ [.table kind inner s]) span) entries, a)
      | _ => .error (.notATable (passed ++ [k]) "array of tables")
    | some v => .error (.notATable (passed ++ [k]) v.typeName)

/-- A key with its value, in the table under the last header. -/
def Draft.addPair (d : Draft) (key : List Key) (node : Node) : Except KeyFault Draft := do
  let (path, last) := Reader.splitKey key
  let span := match d.span, node.span? with
    | some s, some v => some ⟨s.start, v.stop⟩
    | s, _ => s
  let (current, _) ← modifyAt true (fun kind entries =>
      if kind.isDotted == path.isEmpty then .error (.duplicate last.text none)
      else match lookup last.text entries with
        | some _ => .error (.duplicate last.text (some d.path))
        | none => .ok (entries ++ [⟨last, node⟩], ()))
    [] path d.kind d.current
  return { d with current, span }

/-- The place of several tables, from the first to the last. -/
def spanOf (items : List Node) : Option Span :=
  match items.head?.bind Node.span?, items.getLast?.bind Node.span? with
  | some first, some last => some ⟨first.start, last.stop⟩
  | _, _ => none

/-- The fault that the last part of a path is there already. -/
def duplicateLast {α : Type} (path : List Key) : Except KeyFault α :=
  .error (.duplicate (path.getLast?.getD default).spelling (some path.dropLast))

/-- Puts the table under the last header into its place. -/
def Draft.close (d : Draft) : Except KeyFault Draft := do
  let table := Node.table d.kind d.current d.span
  let (parents, last) := Reader.splitKey d.path
  if d.path.isEmpty then return { root := d.current }
  else
    let (root, _) ← modifyAt false (fun _ entries =>
        match d.isArray, lookup last.text entries with
        | true, none => .ok (entries ++ [⟨last, .tables [table] (spanOf [table])⟩], ())
        | true, some (.tables items _) =>
          let items := items ++ [table]
          .ok (replace last.text (.tables items (spanOf items)) entries, ())
        | true, some _ => duplicateLast d.path
        | false, none => .ok (entries ++ [⟨last, table⟩], ())
        | false, some (.table kind _ _) =>
          if kind.isImplicit then .ok (replace last.text table entries, ()) else duplicateLast d.path
        | false, some _ => duplicateLast d.path)
      [] parents {} d.root
    return { root }

/-- A header of a table. -/
def Draft.openTable (d : Draft) (path : List Key) (span : Span) : Except KeyFault Draft := do
  let d ← d.close
  let (parents, last) := Reader.splitKey path
  let (root, current) ← modifyAt false (fun _ entries =>
      match lookup last.text entries with
      | none => .ok (entries, [])
      | some (.table kind inner _) =>
        if kind.isImplicit && !kind.isDotted && !kind.isInline then
          .ok (erase last.text entries, inner)
        else duplicateLast path
      | some _ => duplicateLast path)
    [] parents {} d.root
  return { root, current, span := some span, path }

/-- A header of one more table of an array. -/
def Draft.openArray (d : Draft) (path : List Key) (span : Span) : Except KeyFault Draft := do
  let d ← d.close
  let (parents, last) := Reader.splitKey path
  let (root, _) ← modifyAt false (fun _ entries =>
      match lookup last.text entries with
      | none => .ok (entries ++ [⟨last, .tables [] none⟩], ())
      | some (.tables _ _) => .ok (entries, ())
      | some _ => duplicateLast path)
    [] parents {} d.root
  return { root, span := some span, path, isArray := true }

namespace Reader

/-- The step of a draft, or a refusal at the start of the line. -/
def stepAt (start : Nat) (step : Except KeyFault Draft) : Reader Draft :=
  match step with
  | .ok d => return d
  | .error fault => refuseAt start fault.text

/-- What may stand after a header or a pair. -/
def lineRest : Reader Unit :=
  expecting ["newline", "`#`"] lineTrailing

/-- A header in its brackets. -/
def header (opening closing : String) : Reader (List Key × Span) := do
  let start ← offset
  literal opening
  let path ← final key
  expecting ["`.`", "`" ++ closing ++ "`"] (final (literal closing))
  let stop ← offset
  final lineRest
  return (path, ⟨start, stop⟩)

/-- A line with a header. -/
def headerLine (d : Draft) : Reader Draft :=
  label "table header" do
    let start ← offset
    let ahead ← lookAhead 2
    if ahead.length < 2 then failHere
    else if ahead == ['[', '['] then
      let (path, span) ← header "[[" "]]"
      stepAt start (d.openArray path span)
    else
      let (path, span) ← header "[" "]"
      stepAt start (d.openTable path span)

/-- A line with a key and a value. -/
def pairLine (d : Draft) : Reader Draft := do
  let start ← offset
  let k ← key
  let v ← final do
    keySign
    blanks
    let v ← value (nestingLimit - 1)
    lineRest
    return v
  stepAt start (d.addPair k v)

/-- One line. -/
def line (d : Draft) : Reader Draft := do
  match ← lookAhead 1 with
  | [] => failHere
  | ['#'] =>
    final do
      comment
      lineEnd
    return d
  | ['['] => final (headerLine d)
  | ['\n'] | ['\r'] =>
    newline
    return d
  | _ => final (pairLine d)

/-- The lines of a document; `fuel` bounds their number. -/
def lines : Nat → Draft → Reader Draft
  | 0, d => return d
  | fuel + 1, d => do
    match ← option (line d) with
    | some d =>
      blanks
      lines fuel d
    | none => return d

/-- A document. -/
def document : Reader (List Entry) := do
  let _ ← option (char '\uFEFF')
  blanks
  let size := (← get).rest.length
  let d ← lines (size + 1) {}
  eof
  match d.close with
  | .ok d => return d.root
  | .error fault => refuseAt 0 fault.text

end Reader

/-! ### Messages -/

/-- The number of the line and of the column, both from zero, of a byte of a text. A place inside a
character counts in bytes. -/
def position (text : String) (index : Nat) : Nat × Nat :=
  let size := text.utf8ByteSize
  if size == 0 then (0, index)
  else
    let last := min index (size - 1)
    let go := text.toList.foldl (fun (line, column, bytes, lineStart, done) c =>
      if done then (line, column, bytes, lineStart, true)
      else if last < bytes + c.utf8Size then
        (line, if last + 1 == bytes + c.utf8Size then column else last - lineStart, bytes, lineStart,
          true)
      else if c == '\n' then (line + 1, 0, bytes + 1, bytes + 1, false)
      else (line, column + 1, bytes + c.utf8Size, lineStart, false))
      ((0, 0, 0, 0, false) : Nat × Nat × Nat × Nat × Bool)
    (go.1, go.2.1 + (index - last))

/-- A complaint with the line it is about and a mark under the place. -/
def complaint (text : String) (span : Span) (message : String) : String :=
  let (line, column) := position text span.start
  let number := toString (line + 1)
  let content := (text.splitOn "\n").getD line ""
  let width := min (span.stop - span.start) content.utf8ByteSize
  let gutter := Text.replicate " " (number.length + 1) ++ "|"
  "TOML parse error at line " ++ number ++ ", column " ++ toString (column + 1) ++ "\n" ++
    gutter ++ "\n" ++
    number ++ " | " ++ content ++ "\n" ++
    gutter ++ Text.replicate " " (column + 1) ++ "^" ++ Text.replicate "^" (width - 1) ++ "\n" ++
    message ++ "\n"

/-- The character at an offset. -/
def charSpan (text : String) (offset : Nat) : Span :=
  let found := text.toList.foldl (fun (bytes, size) c =>
    if bytes == offset && size == 0 then (bytes + c.utf8Size, c.utf8Size)
    else (bytes + c.utf8Size, size)) ((0, 0) : Nat × Nat)
  ⟨offset, offset + found.2⟩

/-- The entries of a document, or a complaint about it. -/
def parse (text : String) : Except String (List Entry) :=
  match Reader.document ⟨text.toList, 0⟩ with
  | .ok (entries, _) => .ok entries
  | .error f => .error (complaint text (charSpan text f.offset) f.text)

end SqlLayout.Toml
