import SqlLayout.Sql.Tree

/-!
The one-line text of every phrase: upper-case keywords, one blank between words and a comma and a
blank between list items. Phrases without a layout of their own are shown by this text.
-/

namespace SqlLayout.Sql

open Text (joinWith commas)

/-- Doubles the quotes inside a quoted text, leaving those that are doubled already or that stand
after a backslash. -/
def escapeQuotes (quote : Char) (previous : Char) : List Char → List Char
  | [] => []
  | c :: r =>
    if c == quote then
      if previous == '\\' then c :: escapeQuotes quote previous r
      else
        match r with
        | [] => [c, c]
        | d :: r' =>
          if d == quote then c :: d :: escapeQuotes quote c r'
          else c :: c :: escapeQuotes quote c (d :: r')
    else c :: escapeQuotes quote c r

/-- A text between quotes. -/
def inQuotes (quote : Char) (text : String) : String :=
  quote.toString ++ String.ofList (escapeQuotes quote '\x00' text.toList) ++ quote.toString

/-- A name as it is written. -/
def Ident.print (i : Ident) : String :=
  match i.quote with
  | some q => inQuotes q i.text
  | none => i.text

/-- A name of several parts with points between them. -/
def ObjectName.print (n : ObjectName) : String :=
  joinWith "." (n.map Ident.print)

/-- The text of an `E` constant with its escapes put back. -/
def escapeControl (c : Char) : String :=
  if c == '\x27' then "\\'" else if c == '\\' then "\\\\" else if c == '\n' then "\\n"
  else if c == '\t' then "\\t" else if c == '\r' then "\\r" else c.toString

/-- At least `width` hexadecimal digits. -/
def hexDigits (width n : Nat) : String :=
  let ds := (Nat.toDigits 16 n).map Char.toUpper
  String.ofList (List.replicate (width - ds.length) '0' ++ ds)

/-- The text of a `U&` constant with its escapes put back. -/
def escapeUnicode (c : Char) : String :=
  if c == '\x27' then "''" else if c == '\\' then "\\\\"
  else if c.toNat < 128 then c.toString
  else if c.toNat ≤ 0xFFFF then "\\" ++ hexDigits 4 c.toNat
  else "\\+" ++ hexDigits 6 c.toNat

/-- The text of a constant between quotes. -/
def quotedText (q : Quoting) (text : String) : String :=
  let body := match q with
    | .plain => String.ofList (escapeQuotes '\x27' '\x00' text.toList)
    | .escaped => String.join (text.toList.map escapeControl)
    | .unicode => String.join (text.toList.map escapeUnicode)
    | _ => text
  q.opening ++ body ++ q.closing

def Value.print : Value → String
  | .number d long => if long then d ++ "L" else d
  | .string t => quotedText .plain t
  | .boolean b => if b then "true" else "false"
  | .null => "NULL"
  | .placeholder t => t
  | .other t => t

def DataType.print : DataType → String
  | .builtin t => t
  | .custom n [] => n.print
  | .custom n ms => n.print ++ "(" ++ commas ms ++ ")"
  | .array t none => t.print ++ "[]"
  | .array t (some n) => t.print ++ "[" ++ toString n ++ "]"

def BinaryOp.print : BinaryOp → String
  | .and => "AND"
  | .or => "OR"
  | .other t => t

/-- The keyword of a test, with the operand's place before it. -/
def Truth.print : Truth → String
  | .null => "NULL"
  | .true => "TRUE"
  | .false => "FALSE"
  | .unknown => "UNKNOWN"

def Matching.print : Matching → String
  | .like => "LIKE"
  | .ilike => "ILIKE"
  | .similarTo => "SIMILAR TO"

def Quantifier.print : Quantifier → String
  | .any => "ANY"
  | .some => "SOME"
  | .all => "ALL"

/-- The word that negates a predicate, with the blank after it. -/
def notWord (negated : Bool) : String :=
  if negated then "NOT " else ""

/-- What stands after the expression of a sort item. -/
def SortOptions.print (o : SortOptions) : String :=
  (match o.ascending with
    | some true => " ASC"
    | some false => " DESC"
    | none => "") ++
  (match o.nullsFirst with
    | some true => " NULLS FIRST"
    | some false => " NULLS LAST"
    | none => "")

def TableAlias.print (a : TableAlias) : String :=
  (if a.explicit then "AS " else "") ++ a.name.print ++
    (if a.columns.isEmpty then "" else " (" ++ commas a.columns ++ ")")

/-- An alias with the blank before it. -/
def aliasText : Option TableAlias → String
  | some a => " " ++ a.print
  | none => ""

def SetOperator.print : SetOperator → String
  | .union => "UNION"
  | .intersect => "INTERSECT"
  | .except => "EXCEPT"
  | .minus => "MINUS"

/-- The words after an operator between queries, with the blank before them. -/
def SetQuantifier.print : SetQuantifier → String
  | .none => ""
  | .all => " ALL"
  | .distinct => " DISTINCT"
  | .byName => " BY NAME"
  | .allByName => " ALL BY NAME"
  | .distinctByName => " DISTINCT BY NAME"

def JoinKind.print : JoinKind → String
  | .plain => "JOIN"
  | .inner => "INNER JOIN"
  | .left => "LEFT JOIN"
  | .leftOuter => "LEFT OUTER JOIN"
  | .right => "RIGHT JOIN"
  | .rightOuter => "RIGHT OUTER JOIN"
  | .full => "FULL JOIN"
  | .cross => "CROSS JOIN"
  | .semi => "SEMI JOIN"
  | .leftSemi => "LEFT SEMI JOIN"
  | .rightSemi => "RIGHT SEMI JOIN"
  | .anti => "ANTI JOIN"
  | .leftAnti => "LEFT ANTI JOIN"
  | .rightAnti => "RIGHT ANTI JOIN"
  | .crossApply => "CROSS APPLY"
  | .outerApply => "OUTER APPLY"
  | .asOf => "ASOF JOIN"
  | .straight => "STRAIGHT_JOIN"

def Lock.print (l : Lock) : String :=
  (if l.share then "FOR SHARE" else "FOR UPDATE") ++
    (match l.of with
      | some n => " OF " ++ n.print
      | none => "") ++
    (match l.waiting with
      | some .noWait => " NOWAIT"
      | some .skipLocked => " SKIP LOCKED"
      | none => "")

/-- A clause: its keywords between blanks and its text, or nothing. -/
def clause (lead : String) : Option String → String
  | some t => lead ++ t
  | none => ""

/-- A clause with a list, left out when the list is empty. -/
def listClause (lead : String) : List String → String
  | [] => ""
  | ts => lead ++ commas ts

mutual

def Expr.print : Expr → String
  | .ident n => n.print
  | .path ns => ObjectName.print ns
  | .star => "*"
  | .pathStar ns => ObjectName.print ns ++ ".*"
  | .value v => v.print
  | .binary l op r => l.print ++ " " ++ op.print ++ " " ++ r.print
  | .unary .not e => "NOT " ++ e.print
  | .unary .plus e => "+" ++ e.print
  | .unary .minus e => "-" ++ e.print
  | .nested e => "(" ++ e.print ++ ")"
  | .is e negated t => e.print ++ " IS " ++ notWord negated ++ t.print
  | .inList e negated es =>
    e.print ++ " " ++ notWord negated ++ "IN (" ++ commas (printExprs es) ++ ")"
  | .inQuery e negated q => e.print ++ " " ++ notWord negated ++ "IN (" ++ q.print ++ ")"
  | .between e negated low high =>
    e.print ++ " " ++ notWord negated ++ "BETWEEN " ++ low.print ++ " AND " ++ high.print
  | .quantified l op k (.subquery q) =>
    l.print ++ " " ++ op ++ " " ++ k.print ++ "(" ++ q.print ++ ")"
  | .quantified l op k r => l.print ++ " " ++ op ++ " " ++ k.print ++ "(" ++ r.print ++ ")"
  | .cast true e t => e.print ++ "::" ++ t.print
  | .cast false e t => "CAST(" ++ e.print ++ " AS " ++ t.print ++ ")"
  | .caseOf operand whens otherwise =>
    "CASE" ++ clause " " (printOption operand) ++ printWhens whens ++
      clause " ELSE " (printOption otherwise) ++ " END"
  | .existsIn negated q => notWord negated ++ "EXISTS (" ++ q.print ++ ")"
  | .subquery q => "(" ++ q.print ++ ")"
  | .pattern m e negated form escape =>
    e.print ++ " " ++ notWord negated ++ m.print ++ " " ++ form.print ++
      clause " ESCAPE " (escape.map Value.print)
  | .distinctFrom l negated r => l.print ++ " IS " ++ notWord negated ++ "DISTINCT FROM " ++ r.print
  | .array es => "ARRAY[" ++ commas (printExprs es) ++ "]"
  | .bareCall n => ObjectName.print n
  | .queryCall n q => ObjectName.print n ++ "(" ++ q.print ++ ")"
  | .call n odbc duplicates args before orderBy clauses withinGroup filter nulls window =>
    let order := match printSortItems orderBy with
      | [] => []
      | items => ["ORDER BY " ++ commas items]
    let after := joinWith " " (before ++ order ++ clauses)
    (if odbc then "\x7bfn " else "") ++ ObjectName.print n ++ "(" ++
      (match duplicates with
        | some d => d ++ " "
        | none => "") ++
      commas (printExprs args) ++
      (if args.isEmpty || after.isEmpty then after else " " ++ after) ++ ")" ++
      (match printSortItems withinGroup with
        | [] => ""
        | items => " WITHIN GROUP (ORDER BY " ++ commas items ++ ")") ++
      (match printOption filter with
        | some f => " FILTER (WHERE " ++ f ++ ")"
        | none => "") ++
      clause " " nulls ++ window.print ++ (if odbc then "\x7d" else "")
  | .namedArg t => t
  | .access t => t
  | .phrase t => t

def printExprs : List Expr → List String
  | [] => []
  | e :: r => e.print :: printExprs r

def printOption : Option Expr → Option String
  | none => none
  | some e => some e.print

def When.print : When → String
  | .mk c r => " WHEN " ++ c.print ++ " THEN " ++ r.print

def printWhens : List When → String
  | [] => ""
  | w :: r => w.print ++ printWhens r

def SortItem.print : SortItem → String
  | .mk e o => e.print ++ o.print

def printSortItems : List SortItem → List String
  | [] => []
  | i :: r => i.print :: printSortItems r

def Window.print : Window → String
  | .none => ""
  | .named t => " OVER " ++ t
  | .spec partitionBy orderBy frame =>
    " OVER (" ++ joinWith " "
      ((match printExprs partitionBy with
          | [] => []
          | es => ["PARTITION BY " ++ commas es]) ++
        (match printSortItems orderBy with
          | [] => []
          | es => ["ORDER BY " ++ commas es]) ++
        frame.toList) ++ ")"

def Query.print : Query → String
  | .mk isRecursive ctes body orderBy limit offset offsetUnit fetch locks forClause =>
    (match printCtes ctes with
      | [] => ""
      | cs => "WITH " ++ (if isRecursive then "RECURSIVE " else "") ++ commas cs ++ " ") ++
      body.print ++ listClause " ORDER BY " (printSortItems orderBy) ++
      clause " LIMIT " (printOption limit) ++
      (match printOption offset with
        | some o => " OFFSET " ++ o ++ offsetUnit
        | none => "") ++
      clause " " fetch ++ String.join (locks.map (" " ++ ·.print)) ++ clause " " forClause

def Cte.print : Cte → String
  | .mk aliasName materialized query source =>
    aliasName.print ++ " AS " ++
      (match materialized with
        | some true => "MATERIALIZED "
        | some false => "NOT MATERIALIZED "
        | none => "") ++
      "(" ++ query.print ++ ")" ++ clause " FROM " (source.map Ident.print)

def printCtes : List Cte → List String
  | [] => []
  | c :: r => c.print :: printCtes r

def Body.print : Body → String
  | .select s => s.print
  | .query q => "(" ++ q.print ++ ")"
  | .setOp l op quantifier r => l.print ++ " " ++ op.print ++ quantifier.print ++ " " ++ r.print
  | .values explicitRow singular rows =>
    (if singular then "VALUE " else "VALUES ") ++ commas (printRows explicitRow rows)
  | .other t => t

def printRows (explicitRow : Bool) : List (List Expr) → List String
  | [] => []
  | es :: r =>
    ((if explicitRow then "ROW(" else "(") ++ commas (printExprs es) ++ ")") ::
      printRows explicitRow r

def Select.print : Select → String
  | .mk distinct top targets into tables lateralViews condition groupBy groupAll groupModifiers
      clusterBy distributeBy sortBy having windows qualify windowsFirst =>
    let windowClause := listClause " WINDOW " windows
    let qualifyClause := clause " QUALIFY " qualify
    let modifiers := String.join (groupModifiers.map (" " ++ ·))
    "SELECT" ++ distinct.print ++ clause " " top ++ listClause " " (printTargets targets) ++
      clause " " into ++ listClause " FROM " (printTables tables) ++ String.join lateralViews ++
      clause " WHERE " (printOption condition) ++
      (if groupAll then " GROUP BY ALL" ++ modifiers
        else match printExprs groupBy with
          | [] => ""
          | es => " GROUP BY " ++ commas es ++ modifiers) ++
      listClause " CLUSTER BY " clusterBy ++ listClause " DISTRIBUTE BY " distributeBy ++
      listClause " SORT BY " sortBy ++ clause " HAVING " (printOption having) ++
      (if windowsFirst then windowClause ++ qualifyClause else qualifyClause ++ windowClause)

def Distinct.print : Distinct → String
  | .none => ""
  | .rows => " DISTINCT"
  | .on es => " DISTINCT ON (" ++ commas (printExprs es) ++ ")"

def Target.print : Target → String
  | .mk e none => e.print
  | .mk e (some a) => e.print ++ " AS " ++ a.print

def printTargets : List Target → List String
  | [] => []
  | t :: r => t.print :: printTargets r

def Factor.print : Factor → String
  | .table n a => ObjectName.print n ++ aliasText a
  | .function isLateral n args a =>
    (if isLateral then "LATERAL " else "") ++ ObjectName.print n ++ "(" ++
      commas (printExprs args) ++ ")" ++ aliasText a
  | .derived isLateral q a =>
    (if isLateral then "LATERAL " else "") ++ "(" ++ q.print ++ ")" ++ aliasText a
  | .phrase t => t

def Table.print : Table → String
  | .factor t => t.print
  | .joined l isGlobal kind r matching c =>
    l.print ++ " " ++ (if isGlobal then "GLOBAL " else "") ++
      (if kind = .straight then "" else c.lead) ++ kind.print ++ " " ++
      r.print ++ clause " MATCH_CONDITION (" (matching.map (· ++ ")")) ++ c.print

/-- The word before a join that the constraint brings. -/
def Constraint.lead : Constraint → String
  | .natural => "NATURAL "
  | _ => ""

def Constraint.print : Constraint → String
  | .on e => " ON " ++ e.print
  | .byColumns cs => " USING(" ++ commas (cs.map ObjectName.print) ++ ")"
  | .natural => ""
  | .none => ""

def printTables : List Table → List String
  | [] => []
  | t :: r => t.print :: printTables r

end

def Assignment.print (a : Assignment) : String :=
  a.target ++ " = " ++ a.value.print

def ConflictAction.print : ConflictAction → String
  | .nothing => "DO NOTHING"
  | .update as condition =>
    "DO UPDATE SET " ++ commas (as.map Assignment.print) ++ clause " WHERE " (condition.map Expr.print)

def ConflictTarget.print : ConflictTarget → String
  | .columns ns => "(" ++ commas (ns.map Ident.print) ++ ")"
  | .onConstraint n => " ON CONSTRAINT " ++ n.print

def OnInsert.print : OnInsert → String
  | .duplicateKey as => " ON DUPLICATE KEY UPDATE " ++ commas (as.map Assignment.print)
  | .conflict target action =>
    " ON CONFLICT" ++ clause "" (target.map ConflictTarget.print) ++ " " ++ action.print

def Insert.print (i : Insert) : String :=
  i.lead ++ " " ++ i.table ++ clause " AS " (i.aliasName.map Ident.print) ++ " " ++
    (if i.columns.isEmpty then "" else "(" ++ commas i.columns ++ ") ") ++
    (match i.partition with
      | some p => "PARTITION (" ++ p ++ ") "
      | none => "") ++
    (match i.source with
      | some q => q.print
      | none => if i.columns.isEmpty then "DEFAULT VALUES" else "") ++
    clause "" (i.on.map OnInsert.print) ++
    clause " RETURNING " (i.returning.map fun ts => commas (ts.map Target.print))

def Update.print (u : Update) : String :=
  let tables := clause " FROM " (u.tables.map fun ts => commas (ts.map Table.print))
  "UPDATE " ++ clause "" (u.or.map (· ++ " ")) ++ u.table.print ++
    (if u.fromFirst then tables else "") ++
    listClause " SET " (u.assignments.map Assignment.print) ++
    (if u.fromFirst then "" else tables) ++ clause " WHERE " (u.condition.map Expr.print) ++
    clause " RETURNING " (u.returning.map fun ts => commas (ts.map Target.print)) ++
    clause " LIMIT " (u.limit.map Expr.print)

def Delete.print (d : Delete) : String :=
  "DELETE" ++ listClause " " (d.names.map ObjectName.print) ++ " FROM" ++
    listClause " " (d.tables.map Table.print) ++
    clause " USING " (d.others.map fun ts => commas (ts.map Table.print)) ++
    clause " WHERE " (d.condition.map Expr.print) ++
    clause " RETURNING " (d.returning.map fun ts => commas (ts.map Target.print)) ++
    listClause " ORDER BY " (d.orderBy.map SortItem.print) ++ clause " LIMIT " (d.limit.map Expr.print)

end SqlLayout.Sql
