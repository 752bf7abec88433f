import SqlLayout.Layout.OfSql

/-!
The queries that stand in a tree. A query comes before the queries in it, and these in the order in
which they are written. Phrases that keep their text have none.
-/

namespace SqlLayout.Sql

/-- Whether an argument of a call has a layout among others. -/
def Expr.isPositional : Expr → Bool
  | .star => false
  | .namedArg _ => false
  | _ => true

/-- Whether every argument of a call has a layout; a star has one only when it stands alone. -/
def argsHaveLayout : List Expr → Bool
  | [.star] => true
  | es => es.all Expr.isPositional

mutual

/-- The queries of an expression. A call that keeps its text has none. -/
def Expr.queries : Expr → List Query
  | .binary l _ r => l.queries ++ r.queries
  | .unary _ e => e.queries
  | .nested e => e.queries
  | .is e _ _ => e.queries
  | .inList e _ list => e.queries ++ exprQueries list
  | .inQuery e _ q => e.queries ++ q.queries
  | .between e _ low high => e.queries ++ low.queries ++ high.queries
  | .quantified l _ _ r => l.queries ++ r.queries
  | .cast _ e _ => e.queries
  | .caseOf operand whens otherwise =>
    optionQueries operand ++ whenQueries whens ++ optionQueries otherwise
  | .existsIn _ q => q.queries
  | .subquery q => q.queries
  | .pattern _ e _ form _ => e.queries ++ form.queries
  | .distinctFrom l _ r => l.queries ++ r.queries
  | .array es => exprQueries es
  | .queryCall name q =>
    match name.map Ident.print with
    | [word] => if Text.eqIgnoreCase word "array" then q.queries else []
    | _ => []
  | .call _ odbc _ args before orderBy clauses withinGroup filter nulls window =>
    if odbc || nulls.isSome || !before.isEmpty || !clauses.isEmpty || !argsHaveLayout args then []
    else exprQueries args ++ sortQueries orderBy ++ sortQueries withinGroup ++
      optionQueries filter ++ window.queries
  | _ => []

def exprQueries : List Expr → List Query
  | [] => []
  | e :: r => e.queries ++ exprQueries r

def optionQueries : Option Expr → List Query
  | none => []
  | some e => e.queries

def whenQueries : List When → List Query
  | [] => []
  | ⟨c, r⟩ :: ws => c.queries ++ r.queries ++ whenQueries ws

def sortQueries : List SortItem → List Query
  | [] => []
  | ⟨e, _⟩ :: r => e.queries ++ sortQueries r

def Window.queries : Window → List Query
  | .spec partitionBy orderBy _ => exprQueries partitionBy ++ sortQueries orderBy
  | _ => []

/-- A query and the queries in it. -/
def Query.queries : Query → List Query
  | q@⟨_, ctes, body, orderBy, limit, offset, _, _, _, _⟩ =>
    q :: cteQueries ctes ++ body.queries ++ sortQueries orderBy ++ optionQueries limit ++
      optionQueries offset

def cteQueries : List Cte → List Query
  | [] => []
  | ⟨_, _, q, _⟩ :: r => q.queries ++ cteQueries r

def Body.queries : Body → List Query
  | .select x => x.queries
  | .query q => q.queries
  | .setOp l _ _ r => l.queries ++ r.queries
  | .values _ _ rows => rowQueries rows
  | .other _ => []

def rowQueries : List (List Expr) → List Query
  | [] => []
  | es :: r => exprQueries es ++ rowQueries r

def Select.queries : Select → List Query
  | ⟨distinct, _, targets, _, tables, _, condition, groupBy, _, _, _, _, _, having, _, _, _⟩ =>
    distinct.queries ++ targetQueries targets ++ tableQueries tables ++ optionQueries condition ++
      exprQueries groupBy ++ optionQueries having

def Distinct.queries : Distinct → List Query
  | .on es => exprQueries es
  | _ => []

def targetQueries : List Target → List Query
  | [] => []
  | ⟨e, _⟩ :: r => e.queries ++ targetQueries r

def tableQueries : List Table → List Query
  | [] => []
  | t :: r => t.queries ++ tableQueries r

def Factor.queries : Factor → List Query
  | .function _ _ args _ => if argsHaveLayout args then exprQueries args else []
  | .derived _ q _ => q.queries
  | _ => []

def Table.queries : Table → List Query
  | .factor t => t.queries
  | .joined l _ kind r _ c => l.queries ++ r.queries ++ (if kind = .cross then [] else c.queries)

def Constraint.queries : Constraint → List Query
  | .on e => e.queries
  | _ => []

end

def OnInsert.queries : OnInsert → List Query
  | .conflict _ (.update as condition) =>
    exprQueries (as.map Assignment.value) ++ optionQueries condition
  | _ => []

def Insert.queries (i : Insert) : List Query :=
  i.source.elim [] Query.queries ++ i.on.elim [] OnInsert.queries ++
    targetQueries (i.returning.getD [])

def Update.queries (u : Update) : List Query :=
  exprQueries (u.assignments.map Assignment.value) ++ optionQueries u.condition ++
    targetQueries (u.returning.getD [])

def Delete.queries (d : Delete) : List Query :=
  optionQueries d.condition ++ targetQueries (d.returning.getD [])

/-- The queries of a statement. The rows of an `INSERT` are a query. -/
def Statement.queries : Statement → List Query
  | .query q => q.queries
  | .insert i => i.queries
  | .update u => u.queries
  | .delete d => d.queries
  | .command _ => []

end SqlLayout.Sql

namespace SqlLayout.Layout

mutual

/-- The queries of an expression. -/
def Expr.queries : Expr → List Query
  | .call c => c.queries
  | .operation _ _ l r escape => l.queries ++ r.queries ++ optionQueries escape
  | .logic _ args => exprQueries args
  | .nullTest e _ => e.queries
  | .truthTest e _ => e.queries
  | .cast e _ _ => e.queries
  | .caseOf arg whens default =>
    optionQueries arg ++ whenQueries whens ++ optionQueries default
  | .coalesce args => exprQueries args
  | .link _ test _ _ q => optionQueries test ++ q.queries
  | .inList e list _ => e.queries ++ exprQueries list
  | .between e low high _ => e.queries ++ low.queries ++ high.queries
  | .array es => exprQueries es
  | .unary _ e => e.queries
  | .nested e => e.queries
  | _ => []

def exprQueries : List Expr → List Query
  | [] => []
  | e :: r => e.queries ++ exprQueries r

def optionQueries : Option Expr → List Query
  | none => []
  | some e => e.queries

def whenQueries : List When → List Query
  | [] => []
  | ⟨c, r⟩ :: ws => c.queries ++ r.queries ++ whenQueries ws

def Call.queries : Call → List Query
  | ⟨_, args, _, _, orderBy, withinGroup, filter, window⟩ =>
    argQueries args ++ sortQueries orderBy ++ sortQueries withinGroup ++ optionQueries filter ++
      windowQueries window

def argQueries : List Arg → List Query
  | [] => []
  | .positional e :: r => e.queries ++ argQueries r
  | .named _ _ e :: r => e.queries ++ argQueries r

def windowQueries : Option Window → List Query
  | none => []
  | some ⟨partitionBy, orderBy, _⟩ => exprQueries partitionBy ++ sortQueries orderBy

def sortQueries : List SortItem → List Query
  | [] => []
  | ⟨e, _, _⟩ :: r => e.queries ++ sortQueries r

/-- A query and the queries in it. -/
def Query.queries : Query → List Query
  | q@⟨withClause, body, orderBy, limit, offset, _⟩ =>
    q :: withQueries withClause ++ body.queries ++ sortQueries orderBy ++ optionQueries limit ++
      optionQueries offset

def withQueries : Option With → List Query
  | none => []
  | some ⟨_, ctes⟩ => cteQueries ctes

def cteQueries : List Cte → List Query
  | [] => []
  | ⟨_, _, q⟩ :: r => q.queries ++ cteQueries r

def Body.queries : Body → List Query
  | .select x => x.queries
  | .setOp _ _ l r => l.queries ++ r.queries
  | .values rows => rowQueries rows
  | .query q => q.queries

def rowQueries : List (List Expr) → List Query
  | [] => []
  | es :: r => exprQueries es ++ rowQueries r

def Select.queries : Select → List Query
  | ⟨distinct, targets, source, condition, groupBy, having⟩ =>
    distinctQueries distinct ++ targetQueries targets ++ fromQueries source ++ optionQueries condition ++
      exprQueries groupBy ++ optionQueries having

def distinctQueries : Option Distinct → List Query
  | some (.on es) => exprQueries es
  | _ => []

def targetQueries : List Target → List Query
  | [] => []
  | ⟨e, _⟩ :: r => e.queries ++ targetQueries r

def fromQueries : List FromItem → List Query
  | [] => []
  | f :: r => f.queries ++ fromQueries r

def FromItem.queries : FromItem → List Query
  | .function _ call _ => call.queries
  | .subquery _ q _ => q.queries
  | .join _ _ l r c => l.queries ++ r.queries ++ c.queries
  | _ => []

def JoinCondition.queries : JoinCondition → List Query
  | .on e => e.queries
  | _ => []

end

/-- The queries of the rows of an `INSERT`. Plain rows of values are a query without clauses. -/
def InsertSource.queries : InsertSource → List Query
  | .values rows => Query.queries ⟨none, .values rows, [], none, none, []⟩
  | .query q => q.queries
  | .defaultValues => []

def OnConflict.queries : OnConflict → List Query
  | ⟨_, .update as condition⟩ => exprQueries (as.map Assignment.value) ++ optionQueries condition
  | ⟨_, .nothing⟩ => []

def Insert.queries (i : Insert) : List Query :=
  i.source.queries ++ i.onConflict.elim [] OnConflict.queries ++ targetQueries i.returning

def Update.queries (u : Update) : List Query :=
  exprQueries (u.assignments.map Assignment.value) ++ optionQueries u.condition ++
    targetQueries u.returning

def Delete.queries (d : Delete) : List Query :=
  optionQueries d.condition ++ targetQueries d.returning

/-- The queries of a statement. -/
def Statement.queries : Statement → List Query
  | .select q => q.queries
  | .insert i => i.queries
  | .update u => u.queries
  | .delete d => d.queries

end SqlLayout.Layout
