import SqlLayout.Layout.Tree
import SqlLayout.Layout.Piece
import SqlLayout.Layout.FunctionName
import SqlLayout.Text.Letter

/-!
The layout of a statement: keywords in upper case, one target on each line, and joins, conditions and
queries indented by their depth. Every function takes the depth of the line on which its text starts.
-/

namespace SqlLayout.Layout

open Piece (newline sepBy commas leaves)

/-! ### Keywords -/

def Connective.text : Connective → String
  | .and => "AND"
  | .or => "OR"
  | .not => "NOT"

def NullTest.text : NullTest → String
  | .isNull => "IS NULL"
  | .isNotNull => "IS NOT NULL"

def TruthTest.text : TruthTest → String
  | .isTrue => "IS TRUE"
  | .isNotTrue => "IS NOT TRUE"
  | .isFalse => "IS FALSE"
  | .isNotFalse => "IS NOT FALSE"
  | .isUnknown => "IS UNKNOWN"
  | .isNotUnknown => "IS NOT UNKNOWN"

/-- The keyword of a link with the parenthesis that opens its query. -/
def LinkKind.opening : LinkKind → String
  | .existence => "EXISTS("
  | .all => "ALL("
  | .any => "ANY("
  | .array => "ARRAY("
  | .scalar => "("
  | .membership => "IN ("

/-- What stands between an operator and its right operand. -/
def Quantifier.opening : Quantifier → String
  | .none => " "
  | .any => " ANY("
  | .all => " ALL("

/-- What stands after the right operand. -/
def Quantifier.closing : Quantifier → String
  | .none => ""
  | .any => ")"
  | .all => ")"

def Direction.text : Direction → String
  | .default => ""
  | .ascending => " ASC"
  | .descending => " DESC"

def Nulls.text : Nulls → String
  | .first => " NULLS FIRST"
  | .last => " NULLS LAST"

def SetOperator.text : SetOperator → String
  | .union => "UNION"
  | .intersect => "INTERSECT"
  | .except => "EXCEPT"

def JoinKind.text : JoinKind → String
  | .plain => "JOIN"
  | .inner => "INNER JOIN"
  | .left => "LEFT JOIN"
  | .leftOuter => "LEFT OUTER JOIN"
  | .right => "RIGHT JOIN"
  | .rightOuter => "RIGHT OUTER JOIN"
  | .full => "FULL JOIN"
  | .cross => "CROSS JOIN"

def LockStrength.text : LockStrength → String
  | .update => "FOR UPDATE"
  | .share => "FOR SHARE"

def Waiting.text : Waiting → String
  | .noWait => "NOWAIT"
  | .skipLocked => "SKIP LOCKED"

/-- The word that negates a predicate, with the blank after it. -/
def notMark (negated : Bool) : List Piece :=
  if negated then [.mark "NOT "] else []

/-! ### Texts of the tree -/

/-- A constant. Quotes inside a string are doubled. -/
def Const.text : Const → String
  | .number d => d
  | .string t => "'" ++ Text.replaceAll "'" "''" t ++ "'"
  | .boolean b => if b then "true" else "false"
  | .null => "NULL"

/-- An operator. The sign for "not equal" has one spelling. -/
def operatorText (op : String) : String :=
  if op == "<>" then "!=" else op

/-- A column; one without a name is the star. -/
def columnPieces (fields : List String) (wildcard : Bool) : List Piece :=
  match fields with
  | [] => [.mark "*"]
  | fields => leaves "." fields ++ if wildcard then [.mark ".*"] else []

/-- The name of a function, its last part in the case that the style asks for. -/
def functionName (s : Style) (name : List String) : List Piece :=
  match name.getLast? with
  | none => []
  | some last => leaves "." (name.dropLast ++ [casedName s.functionCase last])

/-- An alias with the blank before it. -/
def aliasPieces : Option String → List Piece
  | some a => [.mark " ", .leaf a]
  | none => []

def TableName.pieces (t : TableName) : List Piece :=
  (match t.schema with
    | some schema => [.leaf schema, .mark "."]
    | none => []) ++ [.leaf t.name] ++ aliasPieces t.aliasName

def Locking.pieces (l : Locking) : List Piece :=
  [.mark l.strength.text] ++
    (match l.of with
      | some t => [.mark " OF ", .leaf t]
      | none => []) ++
    (match l.waiting with
      | some w => [.mark (" " ++ w.text)]
      | none => [])

/-- Whether a text starts with a sign, so that a sign before it must be set apart. -/
def startsWithSign (s : Style) (ps : List Piece) : Bool :=
  match (Piece.textOf s ps).toList with
  | '-' :: _ => true
  | '+' :: _ => true
  | _ => false

/-- A sort list after its keywords; empty when there is no item. -/
def sortClause (lead : String) (separator : List Piece) (items : List (List Piece))
    (closing : String) : List Piece :=
  if items.isEmpty then [] else [.mark lead] ++ sepBy separator items ++ [.mark closing]

/-! ### Expressions and queries -/

mutual

/-- An expression. A chain of conditions inside another one is put into parentheses on lines of its
own when it `isOperand`. -/
def Expr.pieces (s : Style) (depth : Nat) (isOperand : Bool) : Expr → List Piece
  | .column fields wildcard => columnPieces fields wildcard
  | .keyword word => [.leaf (Text.upper word)]
  | .const c => [.leaf c.text]
  | .param n => [.leaf ("$" ++ toString n)]
  | .call c => c.pieces s depth
  | .operation q op l r escape =>
    l.pieces s depth false ++ [.mark " ", .leaf (operatorText op), .mark q.opening] ++
      r.pieces s depth false ++ [.mark q.closing] ++
      optionPieces s depth [.mark " ESCAPE "] escape
  | .logic .not args => [.mark "NOT "] ++ firstOperand s depth args
  | .logic c args =>
    if isOperand then
      [.mark "(", .lineBreak, .indent (depth + 1)] ++ chainPieces s (depth + 1) c args ++
        newline depth ++ [.mark ")"]
    else chainPieces s depth c args
  | .nullTest e t => e.pieces s depth false ++ [.mark (" " ++ t.text)]
  | .truthTest e t => e.pieces s depth false ++ [.mark (" " ++ t.text)]
  | .cast e typeName bounds =>
    e.pieces s depth false ++ [.mark "::", .leaf typeName] ++ List.replicate bounds (.mark "[]")
  | .caseOf arg whens default =>
    [.mark "CASE"] ++ optionPieces s depth [.mark " "] arg ++ whenPieces s depth whens ++
      optionPieces s depth [.mark " ELSE "] default ++ [.mark " END"]
  | .coalesce args => [.mark "COALESCE("] ++ commas (exprPieces s depth args) ++ [.mark ")"]
  | .link kind test op negated q =>
    testPieces s depth op test ++ notMark negated ++ [.mark kind.opening, .lineBreak] ++
      q.pieces s (depth + 1) ++ newline depth ++ [.mark ")"]
  | .inList e list negated =>
    e.pieces s depth false ++ [.mark " "] ++ notMark negated ++ [.mark "IN ("] ++
      commas (exprPieces s depth list) ++ [.mark ")"]
  | .between e low high negated =>
    e.pieces s depth false ++ [.mark " "] ++ notMark negated ++ [.mark "BETWEEN "] ++
      low.pieces s depth false ++ [.mark " AND "] ++ high.pieces s depth false
  | .array es => [.mark "ARRAY["] ++ commas (exprPieces s depth es) ++ [.mark "]"]
  | .unary op e =>
    let arg := e.pieces s depth false
    [.leaf op] ++ (if startsWithSign s arg then [.mark " "] else []) ++ arg
  | .nested e => [.mark "("] ++ e.pieces s depth false ++ [.mark ")"]
  | .verbatim t => [.leaf t]

/-- The first of several operands. -/
def firstOperand (s : Style) (depth : Nat) : List Expr → List Piece
  | [] => []
  | e :: _ => e.pieces s depth true

/-- A chain of conditions: the first one stays on its line, and every other one stands one level
deeper after its connective. -/
def chainPieces (s : Style) (depth : Nat) (c : Connective) : List Expr → List Piece
  | [] => []
  | e :: r => e.pieces s depth true ++ chainRest s depth c r

/-- The conditions of a chain after the first. -/
def chainRest (s : Style) (depth : Nat) (c : Connective) : List Expr → List Piece
  | [] => []
  | e :: r =>
    newline (depth + 1) ++ [.mark (c.text ++ " ")] ++ e.pieces s (depth + 1) true ++
      chainRest s depth c r

/-- Each of several expressions. -/
def exprPieces (s : Style) (depth : Nat) : List Expr → List (List Piece)
  | [] => []
  | e :: r => e.pieces s depth false :: exprPieces s depth r

/-- An expression after the pieces that announce it, or nothing. -/
def optionPieces (s : Style) (depth : Nat) (lead : List Piece) : Option Expr → List Piece
  | some e => lead ++ e.pieces s depth false
  | none => []

/-- What a link compares with its query, and the operator between them. -/
def testPieces (s : Style) (depth : Nat) (op : Option String) : Option Expr → List Piece
  | some e =>
    e.pieces s depth false ++ [.mark " "] ++
      (match op with
        | some o => [.leaf o, .mark " "]
        | none => [])
  | none => []

/-- The branches of a `CASE`. -/
def whenPieces (s : Style) (depth : Nat) : List When → List Piece
  | [] => []
  | ⟨c, r⟩ :: ws =>
    [.mark " WHEN "] ++ c.pieces s depth false ++ [.mark " THEN "] ++ r.pieces s depth false ++
      whenPieces s depth ws

def Call.pieces (s : Style) (depth : Nat) : Call → List Piece
  | ⟨name, args, distinct, star, orderBy, withinGroup, filter, window⟩ =>
    functionName s name ++ [.mark "("] ++ (if distinct then [.mark "DISTINCT "] else []) ++
      (if star then [.mark "*"] else commas (argPieces s depth args)) ++
      sortClause " ORDER BY " [.mark ", "] (sortPieces s depth orderBy) "" ++ [.mark ")"] ++
      sortClause " WITHIN GROUP (ORDER BY " [.mark ", "] (sortPieces s depth withinGroup) ")" ++
      filterPieces s depth filter ++ windowPieces s depth window

/-- The condition on the rows that a call takes, or nothing. -/
def filterPieces (s : Style) (depth : Nat) : Option Expr → List Piece
  | some e => [.mark " FILTER (WHERE "] ++ e.pieces s depth false ++ [.mark ")"]
  | none => []

/-- The window of a call, or nothing. -/
def windowPieces (s : Style) (depth : Nat) : Option Window → List Piece
  | some w => w.pieces s depth
  | none => []

/-- Each argument of a call. -/
def argPieces (s : Style) (depth : Nat) : List Arg → List (List Piece)
  | [] => []
  | .positional e :: r => e.pieces s depth false :: argPieces s depth r
  | .named name sign e :: r =>
    ([.leaf name, .mark " ", .leaf sign, .mark " "] ++ e.pieces s depth false) ::
      argPieces s depth r

/-- Each item of a sort list. -/
def sortPieces (s : Style) (depth : Nat) : List SortItem → List (List Piece)
  | [] => []
  | ⟨e, direction, nulls⟩ :: r =>
    (e.pieces s depth false ++ [.mark direction.text] ++
      (match nulls with
        | some n => [.mark n.text]
        | none => [])) :: sortPieces s depth r

def Window.pieces (s : Style) (depth : Nat) : Window → List Piece
  | ⟨partitionBy, orderBy, frame⟩ =>
    let partition := exprPieces s depth partitionBy
    let order := sortPieces s depth orderBy
    [.mark " OVER("] ++ sepBy [.mark " "]
      ((if partition.isEmpty then [] else [[.mark "PARTITION BY "] ++ commas partition]) ++
        (if order.isEmpty then [] else [[.mark "ORDER BY "] ++ commas order]) ++
        (match frame with
          | some f => [[.leaf f]]
          | none => [])) ++ [.mark ")"]

/-- A query whose first line is at the given depth. A select without targets leaves nothing of the
query. -/
def Query.pieces (s : Style) (depth : Nat) : Query → List Piece
  | ⟨withClause, body, orderBy, limit, offset, locking⟩ =>
    let body := body.pieces s depth
    if body.isEmpty then []
    else
      withPieces s depth withClause ++ body ++
      (let items := sortPieces s depth orderBy
        if items.isEmpty then []
        else newline depth ++ [.mark "ORDER BY "] ++
          sepBy (.mark "," :: newline (depth + 1)) items) ++
      optionPieces s depth (newline depth ++ [.mark "LIMIT "]) limit ++
      optionPieces s depth (newline depth ++ [.mark "OFFSET "]) offset ++
      (locking.map fun l => newline depth ++ l.pieces).flatten

/-- Named queries and the line break after them, or nothing. -/
def withPieces (s : Style) (depth : Nat) : Option With → List Piece
  | some w => w.pieces s depth ++ [.lineBreak]
  | none => []

def With.pieces (s : Style) (depth : Nat) : With → List Piece
  | ⟨isRecursive, ctes⟩ =>
    [.indent depth, .mark "WITH "] ++ (if isRecursive then [.mark "RECURSIVE "] else []) ++
      commas (ctePieces s depth ctes)

/-- Each named query. -/
def ctePieces (s : Style) (depth : Nat) : List Cte → List (List Piece)
  | [] => []
  | ⟨name, materialized, q⟩ :: r =>
    ([.leaf name, .mark " AS "] ++
      (match materialized with
        | some m => [.leaf m, .mark " "]
        | none => []) ++
      [.mark "(", .lineBreak] ++ q.pieces s (depth + 1) ++ newline depth ++ [.mark ")"]) ::
        ctePieces s depth r

def Body.pieces (s : Style) (depth : Nat) : Body → List Piece
  | .select x => x.pieces s depth
  | .setOp op all l r =>
    l.pieces s depth ++ newline depth ++ [.mark (op.text ++ if all then " ALL" else "")] ++
      [.lineBreak] ++ r.pieces s depth
  | .values rows =>
    [.indent depth, .mark "VALUES "] ++ commas (rowPieces s depth rows)
  | .query q =>
    [.indent depth, .mark "(", .lineBreak] ++ q.pieces s (depth + 1) ++ newline depth ++ [.mark ")"]

/-- Each row of values, one value on a line. -/
def rowPieces (s : Style) (depth : Nat) : List (List Expr) → List (List Piece)
  | [] => []
  | es :: r =>
    ([.mark "("] ++
      sepBy [.mark ","] ((exprPieces s (depth + 1) es).map (newline (depth + 1) ++ ·)) ++
      newline depth ++ [.mark ")"]) :: rowPieces s depth r

def Select.pieces (s : Style) (depth : Nat) : Select → List Piece
  | ⟨distinct, targets, source, condition, groupBy, having⟩ =>
    let targets := targetPieces s (depth + 1) targets
    let source := fromPieces s depth source
    let groups := exprPieces s depth groupBy
    if targets.isEmpty then []
    else
      [.indent depth, .mark "SELECT"] ++ distinctPieces s depth distinct ++
        sepBy [.mark ","] (targets.map (newline (depth + 1) ++ ·)) ++
        (if source.isEmpty then [] else newline depth ++ [.mark "FROM "] ++ commas source) ++
        optionPieces s depth (newline depth ++ [.mark "WHERE "]) condition ++
        (if groups.isEmpty then [] else newline depth ++ [.mark "GROUP BY "] ++ commas groups) ++
        optionPieces s depth (newline depth ++ [.mark "HAVING "]) having

/-- The treatment of equal rows, or nothing. -/
def distinctPieces (s : Style) (depth : Nat) : Option Distinct → List Piece
  | some d => d.pieces s depth
  | none => []

def Distinct.pieces (s : Style) (depth : Nat) : Distinct → List Piece
  | .rows => [.mark " DISTINCT"]
  | .on es => [.mark " DISTINCT ON ("] ++ commas (exprPieces s depth es) ++ [.mark ")"]

/-- Each item of a projection. -/
def targetPieces (s : Style) (depth : Nat) : List Target → List (List Piece)
  | [] => []
  | ⟨e, name⟩ :: r =>
    (e.pieces s depth false ++
      (match name with
        | some n => [.mark " AS ", .leaf n]
        | none => [])) :: targetPieces s depth r

/-- Each item of a `FROM` clause. -/
def fromPieces (s : Style) (depth : Nat) : List FromItem → List (List Piece)
  | [] => []
  | f :: r => f.pieces s depth :: fromPieces s depth r

/-- One item of a `FROM` clause. A join stands on a line of its own, one level deeper than the table
before it if the style says so. -/
def FromItem.pieces (s : Style) (depth : Nat) : FromItem → List Piece
  | .table t => t.pieces
  | .function isLateral call aliasName =>
    (if isLateral then [.mark "LATERAL "] else []) ++ call.pieces s depth ++ aliasPieces aliasName
  | .subquery isLateral q aliasName =>
    (if isLateral then [.mark "LATERAL "] else []) ++ [.mark "(", .lineBreak] ++
      q.pieces s (depth + 1) ++ newline depth ++ [.mark ")"] ++ aliasPieces aliasName
  | .join kind natural l r condition =>
    let joinDepth := if s.joinIndented then depth + 1 else depth
    l.pieces s depth ++ newline joinDepth ++ (if natural then [.mark "NATURAL "] else []) ++
      [.mark (kind.text ++ " ")] ++ r.pieces s joinDepth ++ condition.pieces s joinDepth
  | .verbatim t => [.leaf t]

/-- The condition of a join that stands at the given depth. -/
def JoinCondition.pieces (s : Style) (depth : Nat) : JoinCondition → List Piece
  | .on e =>
    if s.onOwnLine then newline (depth + 1) ++ [.mark "ON "] ++ e.pieces s (depth + 1) false
    else [.mark " ON "] ++ e.pieces s depth false
  | .byColumns cs => [.mark " USING("] ++ leaves ", " cs ++ [.mark ")"]
  | .none => []

end

/-! ### Statements -/

/-- The condition of a statement on a line of its own, or nothing. -/
def wherePieces (s : Style) (condition : Option Expr) : List Piece :=
  optionPieces s 0 (newline 0 ++ [.mark "WHERE "]) condition

/-- The rows that a statement gives back, or nothing. -/
def returningPieces (s : Style) (targets : List Target) : List Piece :=
  if targets.isEmpty then []
  else newline 0 ++ [.mark "RETURNING "] ++ commas (targetPieces s 0 targets)

/-- Assignments, each on a line of its own. -/
def assignmentPieces (s : Style) (as : List Assignment) : List Piece :=
  sepBy [.mark ","] (as.map fun a =>
    newline 1 ++ [.leaf a.target, .mark " = "] ++ a.value.pieces s 1 false)

def ConflictTarget.pieces : ConflictTarget → List Piece
  | .columns cs => [.mark "("] ++ leaves ", " cs ++ [.mark ")"]
  | .onConstraint n => [.mark " ON CONSTRAINT ", .leaf n]

def ConflictAction.pieces (s : Style) : ConflictAction → List Piece
  | .nothing => newline 0 ++ [.mark "DO NOTHING"]
  | .update as condition =>
    newline 0 ++ [.mark "DO UPDATE SET"] ++ assignmentPieces s as ++ wherePieces s condition

def OnConflict.pieces (s : Style) (c : OnConflict) : List Piece :=
  newline 0 ++ [.mark "ON CONFLICT"] ++
    (match c.target with
      | some t => t.pieces
      | none => []) ++ c.action.pieces s

def InsertSource.pieces (s : Style) : InsertSource → List Piece
  | .values rows => [.mark "VALUES "] ++ commas (rowPieces s 0 rows)
  | .query q => q.pieces s 0
  | .defaultValues => [.mark "DEFAULT VALUES"]

def Insert.pieces (s : Style) (i : Insert) : List Piece :=
  [.mark "INSERT INTO ", .leaf i.table] ++
    (match i.aliasName with
      | some a => [.mark " AS ", .leaf a]
      | none => []) ++
    (if i.columns.isEmpty then newline 0
      else [.mark "("] ++ sepBy [.mark ","] (i.columns.map fun c => newline 1 ++ [.leaf c]) ++
        newline 0 ++ [.mark ") "]) ++
    i.source.pieces s ++
    (match i.onConflict with
      | some c => c.pieces s
      | none => []) ++
    returningPieces s i.returning

def Update.pieces (s : Style) (u : Update) : List Piece :=
  [.mark "UPDATE "] ++ u.table.pieces ++ newline 0 ++ [.mark "SET"] ++
    assignmentPieces s u.assignments ++ wherePieces s u.condition ++ returningPieces s u.returning

def Delete.pieces (s : Style) (d : Delete) : List Piece :=
  [.mark "DELETE FROM "] ++ d.table.pieces ++ wherePieces s d.condition ++
    returningPieces s d.returning

def Statement.pieces (s : Style) : Statement → List Piece
  | .select q => q.pieces s 0
  | .insert i => i.pieces s
  | .update u => u.pieces s
  | .delete d => d.pieces s

/-- The text of a statement in the given style, without a line break at either end. -/
def Statement.render (s : Style) (t : Statement) : String :=
  Piece.textOf s (t.pieces s)

end SqlLayout.Layout
