import SqlLayout.Error
import SqlLayout.Layout.Tree
import SqlLayout.Layout.FunctionName
import SqlLayout.Sql.Printer
import SqlLayout.Text.Letter

/-!
From the tree of a script as it is read to trees that can be laid out. Chains of one connective become
one node, parentheses around whole conditions go away, phrases without a layout keep their one-line
text, and clauses that would be lost or end up in a wrong place are refused.
-/

namespace SqlLayout.Layout

/-! ### Names, constants and types -/

/-- The number of a parameter such as `$1`. -/
def paramNumber? (text : String) : Option Nat :=
  match text.toList with
  | '$' :: ds =>
    if ds.isEmpty || !ds.all Char.isDigit then none
    else
      let n := ds.foldl (fun n c => n * 10 + (c.toNat - 48)) 0
      if n < UInt32.size then some n else none
  | _ => none

def Expr.ofValue : Sql.Value → Expr
  | .number d _ => .const (.number d)
  | .string t => .const (.string t)
  | .boolean b => .const (.boolean b)
  | .null => .const .null
  | .placeholder t =>
    match paramNumber? t with
    | some n => .param n
    | none => .verbatim t
  | .other t => .verbatim t

/-- A bare name that is a value of the session is a keyword; every other name is a column. -/
def Expr.ofIdent (i : Sql.Ident) : Expr :=
  if i.quote.isNone && isSessionKeyword i.text then .keyword (Text.upper i.text)
  else .column [i.print] false

/-- A path of names. The table of rows that were not inserted is written in upper case. -/
def Expr.ofPath (names : List Sql.Ident) : Expr :=
  match names with
  | first :: second :: rest =>
    let lead :=
      if first.quote.isNone && Text.eqIgnoreCase first.text "excluded" then "EXCLUDED"
      else first.print
    .column (lead :: (second :: rest).map Sql.Ident.print) false
  | names => .column (names.map Sql.Ident.print) false

/-- The name of a type and the number of its array brackets. A name of the user's own keeps its
case. -/
def typeName : Sql.DataType → String × Nat
  | .array t _ =>
    let (name, bounds) := typeName t
    (name, bounds + 1)
  | .custom name [] => (name.print, 0)
  | t => (Text.lower t.print, 0)

/-- An alias with its columns. -/
def aliasText (a : Sql.TableAlias) : String :=
  a.name.print ++ if a.columns.isEmpty then "" else "(" ++ Text.commas a.columns ++ ")"

def TableName.ofSql (name : Sql.ObjectName) (aliasName : Option Sql.TableAlias) : TableName :=
  let parts := name.map Sql.Ident.print
  { schema := if parts.length ≤ 1 then none else some (Text.joinWith "." parts.dropLast)
    name := parts.getLast?.getD ""
    aliasName := aliasName.map aliasText }

/-! ### Keywords -/

/-- A test of a truth value. -/
def Expr.ofTest (e : Expr) (negated : Bool) : Sql.Truth → Expr
  | .null => .nullTest e (if negated then .isNotNull else .isNull)
  | .true => .truthTest e (if negated then .isNotTrue else .isTrue)
  | .false => .truthTest e (if negated then .isNotFalse else .isFalse)
  | .unknown => .truthTest e (if negated then .isNotUnknown else .isUnknown)

/-- A pattern operator with the word that negates it. -/
def matchingText (m : Sql.Matching) (negated : Bool) : String :=
  Sql.notWord negated ++ m.print

def Direction.ofSql : Option Bool → Direction
  | none => .default
  | some true => .ascending
  | some false => .descending

def Nulls.ofSql : Option Bool → Option Nulls :=
  Option.map fun first => if first then .first else .last

def SetOperator.ofSql : Sql.SetOperator → Outcome SetOperator
  | .union => return .union
  | .intersect => return .intersect
  | .except => return .except
  | .minus => throw (.unknownKeyword "set operation" "Minus")

/-- Whether an operator between queries keeps rows that occur twice. -/
def keepsDuplicates : Sql.SetQuantifier → Outcome Bool
  | .all => return true
  | .distinct => return false
  | .none => return false
  | .byName => throw (.unknownKeyword "set quantifier" "ByName")
  | .allByName => throw (.unknownKeyword "set quantifier" "AllByName")
  | .distinctByName => throw (.unknownKeyword "set quantifier" "DistinctByName")

def JoinKind.ofSql : Sql.JoinKind → Outcome JoinKind
  | .plain => return .plain
  | .inner => return .inner
  | .left => return .left
  | .leftOuter => return .leftOuter
  | .right => return .right
  | .rightOuter => return .rightOuter
  | .full => return .full
  | .cross => return .cross
  | .semi => throw (.unknownKeyword "join type" "Semi")
  | .leftSemi => throw (.unknownKeyword "join type" "LeftSemi")
  | .rightSemi => throw (.unknownKeyword "join type" "RightSemi")
  | .anti => throw (.unknownKeyword "join type" "Anti")
  | .leftAnti => throw (.unknownKeyword "join type" "LeftAnti")
  | .rightAnti => throw (.unknownKeyword "join type" "RightAnti")
  | .crossApply => throw (.unknownKeyword "join type" "CrossApply")
  | .outerApply => throw (.unknownKeyword "join type" "OuterApply")
  | .asOf => throw (.unknownKeyword "join type" "AsOf")
  | .straight => throw (.unknownKeyword "join type" "StraightJoin")

def Locking.ofSql (l : Sql.Lock) : Locking where
  strength := if l.share then .share else .update
  of := l.of.map Sql.ObjectName.print
  waiting := l.waiting.map fun
    | .noWait => .noWait
    | .skipLocked => .skipLocked

/-! ### Expressions -/

/-- What an expression becomes, by the place where it stands. -/
structure Reading where
  /-- The expression as it stands. -/
  whole : Outcome Expr
  /-- The expression without the parentheses around it. -/
  bare : Outcome Expr
  /-- The operands that it brings to a chain of the connective, in their order. -/
  operands : Connective → Outcome (List Expr)

/-- An expression that is the same in every place. -/
def Reading.same (e : Outcome Expr) : Reading where
  whole := e
  bare := e
  operands _ := return [← e]

/-- An expression in parentheses. -/
def Reading.nested (r : Reading) : Reading where
  whole := return .nested (← r.whole)
  bare := r.bare
  operands := r.operands

/-- Two conditions with a connective between them. -/
def Reading.chain (c : Connective) (l r : Reading) : Reading :=
  let args : Outcome (List Expr) := return (← l.operands c) ++ (← r.operands c)
  let node : Outcome Expr := return .logic c (← args)
  { whole := node
    bare := node
    operands := fun c' => if c' = c then args else return [← node] }

/-- A comparison with a set: with the rows of a query if the right side is one, and with the elements
of an array if not. -/
def Expr.ofQuantified (k : Sql.Quantifier) (op : String) (left : Expr) : Expr → Expr
  | .link .scalar none none false q =>
    .link (if k = .all then .all else .any) (some left) (some op) false q
  | right => .operation (if k = .all then .all else .any) op left right none

/-- The first clause of a select that has no layout. -/
def refusalOf (x : Sql.Select) : Option String :=
  if x.into.isSome then some "SELECT ... INTO"
  else if !x.windows.isEmpty then some "WINDOW clause"
  else if x.top.isSome then some "TOP"
  else if !x.lateralViews.isEmpty then some "LATERAL VIEW"
  else if !x.clusterBy.isEmpty then some "CLUSTER BY"
  else if !x.distributeBy.isEmpty then some "DISTRIBUTE BY"
  else if !x.sortBy.isEmpty then some "SORT BY"
  else if x.qualify.isSome then some "QUALIFY"
  else none

/-- Refuses something that has no layout. -/
def refuse {α : Type} (what : String) : Outcome α :=
  throw (.unsupported what)

/-- The arguments of a call, or `none` when one of them has no layout. The star counts only when it
stands alone; it is the second component. -/
abbrev Args := Option (List Arg × Bool)

/-- The arguments of a call, where `positional` is what they become when each of them stands for
itself. -/
def argsOf (args : List Sql.Expr) (positional : Outcome (Option (List Arg))) : Outcome Args :=
  match args with
  | [.star] => return some ([], true)
  | _ => do return (← positional).map (·, false)

/-- A call whose arguments and clauses all have a layout. -/
def Expr.ofCall (c : Call) : Expr :=
  let isPlain := !c.distinct && !c.star && c.orderBy.isEmpty && c.withinGroup.isEmpty &&
    c.filter.isNone && c.window.isNone
  let values := c.args.filterMap fun
    | .positional e => some e
    | .named _ _ _ => none
  match c.name with
  | [name] =>
    if isPlain && Text.eqIgnoreCase name "coalesce" && values.length == c.args.length then
      .coalesce values
    else .call c
  | _ => .call c

mutual

/-- What an expression becomes. -/
def readingOf : Sql.Expr → Reading
  | .ident i => .same (return .ofIdent i)
  | .path names => .same (return .ofPath names)
  | .star => .same (return .column [] true)
  | .pathStar names => .same (return .column (names.map Sql.Ident.print) true)
  | .value v => .same (return .ofValue v)
  | .binary l .and r => .chain .and (readingOf l) (readingOf r)
  | .binary l .or r => .chain .or (readingOf l) (readingOf r)
  | .binary l (.other op) r =>
    .same (do return .operation .none op (← (readingOf l).whole) (← (readingOf r).whole) none)
  | .unary .not e => .same (do return .logic .not [← (readingOf e).bare])
  | .unary .plus e => .same (do return .unary "+" (← (readingOf e).whole))
  | .unary .minus e => .same (do return .unary "-" (← (readingOf e).whole))
  | .nested e => .nested (readingOf e)
  | .is e negated truth => .same (do return .ofTest (← (readingOf e).whole) negated truth)
  | .inList e negated list =>
    .same (do return .inList (← (readingOf e).whole) (← exprsOfSql list) negated)
  | .inQuery e negated q =>
    .same (do
      let e ← (readingOf e).whole
      return .link .membership (some e) none negated (← Query.ofSql q))
  | .between e negated low high =>
    .same (do
      return .between (← (readingOf e).whole) (← (readingOf low).whole) (← (readingOf high).whole) negated)
  | .quantified l op k r =>
    .same (do return .ofQuantified k op (← (readingOf l).whole) (← (readingOf r).bare))
  | .cast _ e type =>
    let (name, bounds) := typeName type
    .same (do return .cast (← (readingOf e).whole) name bounds)
  | .caseOf operand whens otherwise =>
    .same (do
      let operand ← optionOfSql operand
      let whens ← whensOfSql whens
      return .caseOf operand whens (← optionOfSql otherwise))
  | .existsIn negated q => .same (do return .link .existence none none negated (← Query.ofSql q))
  | .subquery q => .same (do return .link .scalar none none false (← Query.ofSql q))
  | .pattern m e negated form escape =>
    .same (do
      return .operation .none (matchingText m negated) (← (readingOf e).whole) (← (readingOf form).whole)
        (escape.map Expr.ofValue))
  | .distinctFrom l negated r =>
    .same (do
      return .operation .none (if negated then "IS NOT DISTINCT FROM" else "IS DISTINCT FROM")
        (← (readingOf l).whole) (← (readingOf r).whole) none)
  | .array es => .same (do return .array (← exprsOfSql es))
  | .bareCall name =>
    .same (return match name.map Sql.Ident.print with
      | [word] =>
        if isSessionKeyword word then .keyword (Text.upper word) else .verbatim name.print
      | _ => .verbatim name.print)
  | .queryCall name q =>
    match name.map Sql.Ident.print with
    | [word] =>
      if Text.eqIgnoreCase word "array" then
        .same (do return .link .array none none false (← Query.ofSql q))
      else .same (return .verbatim (Sql.Expr.queryCall name q).print)
    | _ => .same (return .verbatim (Sql.Expr.queryCall name q).print)
  | .call name odbc duplicates args before orderBy clauses withinGroup filter nulls window =>
    let text : Expr := .verbatim
      (Sql.Expr.call name odbc duplicates args before orderBy clauses withinGroup filter nulls
        window).print
    .same (
      if odbc || nulls.isSome || !before.isEmpty then return text
      else do
        let order ← sortOfSql orderBy
        if !clauses.isEmpty then return text
        match ← argsOf args (positionalOfSql args) with
        | none => return text
        | some (args, star) =>
          let window ← windowOfSql window
          let group ← sortOfSql withinGroup
          let filter ← bareOptionOfSql filter
          return .ofCall ⟨name.map Sql.Ident.print, args, duplicates == some "DISTINCT", star,
            order, group, filter, window⟩)
  | .namedArg t => .same (return .verbatim t)
  | .access t => .same (return .verbatim t)
  | .phrase t => .same (return .verbatim t)

def exprsOfSql : List Sql.Expr → Outcome (List Expr)
  | [] => return []
  | e :: r => do
    let e ← (readingOf e).whole
    return e :: (← exprsOfSql r)

def optionOfSql : Option Sql.Expr → Outcome (Option Expr)
  | none => return none
  | some e => do return some (← (readingOf e).whole)

/-- A condition; the parentheses around it go away. -/
def bareOptionOfSql : Option Sql.Expr → Outcome (Option Expr)
  | none => return none
  | some e => do return some (← (readingOf e).bare)

def whensOfSql : List Sql.When → Outcome (List When)
  | [] => return []
  | ⟨c, r⟩ :: ws => do
    let c ← (readingOf c).whole
    let r ← (readingOf r).whole
    return ⟨c, r⟩ :: (← whensOfSql ws)

def sortOfSql : List Sql.SortItem → Outcome (List SortItem)
  | [] => return []
  | ⟨e, o⟩ :: r => do
    let e ← (readingOf e).whole
    return ⟨e, .ofSql o.ascending, Nulls.ofSql o.nullsFirst⟩ :: (← sortOfSql r)


/-- Arguments, or `none` when one of them has no layout. -/
def positionalOfSql : List Sql.Expr → Outcome (Option (List Arg))
  | [] => return some []
  | .star :: _ => return none
  | .namedArg _ :: _ => return none
  | e :: r => do
    let e ← (readingOf e).whole
    return (← positionalOfSql r).map (.positional e :: ·)

def windowOfSql : Sql.Window → Outcome (Option Window)
  | .none => return none
  | .named _ => refuse "OVER a named window"
  | .spec partitionBy orderBy frame => do
    let partitionBy ← exprsOfSql partitionBy
    return some ⟨partitionBy, ← sortOfSql orderBy, frame⟩

def Query.ofSql : Sql.Query → Outcome Query
  | ⟨isRecursive, ctes, body, orderBy, limit, offset, _, fetch, locks, forClause⟩ => do
    if fetch.isSome then refuse "FETCH clause"
    if forClause.isSome then refuse "query clause outside PostgreSQL"
    let named ← ctesOfSql ctes
    let orderBy ← sortOfSql orderBy
    let limit ← optionOfSql limit
    let offset ← optionOfSql offset
    let body ← Body.ofSql body
    return ⟨if ctes.isEmpty then none else some ⟨isRecursive, named⟩, body, orderBy, limit, offset,
      locks.map Locking.ofSql⟩

def ctesOfSql : List Sql.Cte → Outcome (List Cte)
  | [] => return []
  | ⟨aliasName, materialized, q, _⟩ :: r => do
    let q ← Query.ofSql q
    return ⟨aliasText aliasName,
      materialized.map fun m => if m then "MATERIALIZED" else "NOT MATERIALIZED", q⟩ ::
        (← ctesOfSql r)

def Body.ofSql : Sql.Body → Outcome Body
  | .select x => do
    if let some what := refusalOf x then refuse what
    return .select (← Select.ofSql x)
  | .query q => do return .query (← Query.ofSql q)
  | .setOp l op quantifier r => do
    let op ← SetOperator.ofSql op
    let all ← keepsDuplicates quantifier
    let l ← Body.ofSql l
    return .setOp op all l (← Body.ofSql r)
  | .values _ _ rows => do return .values (← rowsOfSql rows)
  | .other text => refuse ("query body: " ++ text)

def rowsOfSql : List (List Sql.Expr) → Outcome (List (List Expr))
  | [] => return []
  | es :: r => do
    let es ← exprsOfSql es
    return es :: (← rowsOfSql r)

/-- A select whose other clauses `refusalOf` has let pass. -/
def Select.ofSql : Sql.Select → Outcome Select
  | ⟨distinct, _, targets, _, tables, _, condition, groupBy, groupAll, groupModifiers, _, _, _,
      having, _, _, _⟩ => do
    let distinct ← distinctOfSql distinct
    if groupAll then refuse "GROUP BY ALL"
    if !groupModifiers.isEmpty then refuse "GROUP BY modifiers"
    let groupBy ← exprsOfSql groupBy
    let targets ← targetsOfSql targets
    let source ← fromOfSql tables
    let condition ← bareOptionOfSql condition
    return ⟨distinct, targets, source, condition, groupBy, ← bareOptionOfSql having⟩

def distinctOfSql : Sql.Distinct → Outcome (Option Distinct)
  | .none => return none
  | .rows => return some .rows
  | .on es => do return some (.on (← exprsOfSql es))

def targetsOfSql : List Sql.Target → Outcome (List Target)
  | [] => return []
  | ⟨.pathStar names, _⟩ :: r => do
    return ⟨.column [Sql.ObjectName.print names] true, none⟩ :: (← targetsOfSql r)
  | ⟨e, aliasName⟩ :: r => do
    let e ← (readingOf e).whole
    return ⟨e, aliasName.map Sql.Ident.print⟩ :: (← targetsOfSql r)

def fromOfSql : List Sql.Table → Outcome (List FromItem)
  | [] => return []
  | t :: r => do
    let t ← FromItem.ofSql t
    return t :: (← fromOfSql r)

def FromItem.ofFactor : Sql.Factor → Outcome FromItem
  | .table name aliasName => return .table (.ofSql name aliasName)
  | .function isLateral name args aliasName => do
    match ← argsOf args (positionalOfSql args) with
    | some (list, star) =>
      return .function isLateral ⟨name.map Sql.Ident.print, list, false, star, [], [], none, none⟩
        (aliasName.map aliasText)
    | none => return .verbatim (Sql.Factor.function isLateral name args aliasName).print
  | .derived isLateral q aliasName => do
    return .subquery isLateral (← Query.ofSql q) (aliasName.map aliasText)
  | .phrase t => return .verbatim t

def FromItem.ofSql : Sql.Table → Outcome FromItem
  | .factor t => FromItem.ofFactor t
  | .joined l _ kind r _ c => do
    let l ← FromItem.ofSql l
    let kind ← JoinKind.ofSql kind
    let (natural, condition) ← conditionOfSql kind c
    let r ← FromItem.ofFactor r
    return .join kind natural l r condition

/-- Whether a join is natural, and its condition. A cross join has none. -/
def conditionOfSql (kind : JoinKind) : Sql.Constraint → Outcome (Bool × JoinCondition)
  | .on e => do
    if kind = .cross then return (false, .none)
    return (false, .on (← (readingOf e).bare))
  | .byColumns cs =>
    return (false, if kind = .cross then .none else .byColumns (cs.map Sql.ObjectName.print))
  | .natural => return (kind ≠ .cross, .none)
  | .none => return (false, .none)

end

/-! ### Statements -/

/-- The table that a statement changes. -/
def targetTable : Sql.Table → Outcome TableName
  | .joined _ _ _ _ _ _ => refuse "joined mutation target"
  | .factor (.table name aliasName) => return .ofSql name aliasName
  | .factor t => refuse ("mutation target: " ++ t.print)

def assignmentsOfSql (as : List Sql.Assignment) : Outcome (List Assignment) :=
  as.mapM fun a => do return ⟨a.target, ← (readingOf a.value).whole⟩

def returningOfSql (targets : Option (List Sql.Target)) : Outcome (List Target) :=
  targetsOfSql (targets.getD [])

/-- The rows of an `INSERT`. Rows of values are laid out as such when no clause stands around
them. -/
def InsertSource.ofSql : Option Sql.Query → Outcome InsertSource
  | none => return .defaultValues
  | some q =>
    match q.body with
    | .values _ _ rows =>
      if q.ctes.isEmpty && q.orderBy.isEmpty && q.limit.isNone && q.offset.isNone then
        return .values (← rowsOfSql rows)
      else return .query (← Query.ofSql q)
    | _ => return .query (← Query.ofSql q)

def OnConflict.ofSql : Sql.OnInsert → Outcome OnConflict
  | .duplicateKey _ => refuse "INSERT ... ON DUPLICATE KEY"
  | .conflict target action => do
    let target := target.map fun
      | .columns names => .columns (names.map Sql.Ident.print)
      | .onConstraint name => .onConstraint name.print
    match action with
    | .nothing => return ⟨target, .nothing⟩
    | .update as condition =>
      let as ← assignmentsOfSql as
      return ⟨target, .update as (← bareOptionOfSql condition)⟩

def Insert.ofSql (i : Sql.Insert) : Outcome Insert := do
  if i.foreign then refuse "INSERT clause outside PostgreSQL"
  let source ← InsertSource.ofSql i.source
  let onConflict ← i.on.mapM OnConflict.ofSql
  return { table := i.table, aliasName := i.aliasName.map Sql.Ident.print, columns := i.columns, source,
           onConflict, returning := ← returningOfSql i.returning }

def Update.ofSql (u : Sql.Update) : Outcome Update := do
  if u.tables.isSome then refuse "UPDATE ... FROM"
  if u.or.isSome then refuse "UPDATE OR"
  if u.limit.isSome then refuse "UPDATE ... LIMIT"
  let table ← targetTable u.table
  let assignments ← assignmentsOfSql u.assignments
  let condition ← bareOptionOfSql u.condition
  return { table, assignments, condition, returning := ← returningOfSql u.returning }

def Delete.ofSql (d : Sql.Delete) : Outcome Delete := do
  if d.others.isSome then refuse "DELETE ... USING"
  if !d.names.isEmpty then refuse "multi-table DELETE"
  if !d.orderBy.isEmpty then refuse "DELETE ... ORDER BY"
  if d.limit.isSome then refuse "DELETE ... LIMIT"
  match d.tables with
  | [t] =>
    let table ← targetTable t
    let condition ← bareOptionOfSql d.condition
    return { table, condition, returning := ← returningOfSql d.returning }
  | _ => refuse "multi-table DELETE"

/-- The tree that can be laid out, or the reason why there is none. -/
def Statement.ofSql : Sql.Statement → Outcome Statement
  | .query q => return .select (← Query.ofSql q)
  | .insert i => return .insert (← Insert.ofSql i)
  | .update u => return .update (← Update.ofSql u)
  | .delete d => return .delete (← Delete.ofSql d)
  | .command label => refuse ("statement: " ++ label)

end SqlLayout.Layout
