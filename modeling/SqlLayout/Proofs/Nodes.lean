import SqlLayout.Layout.Tree

/-!
The nodes of a tree. A node comes before the nodes in it, and these in the order in which they are
written.
-/

namespace SqlLayout.Layout

/-- A part of a tree that can be looked at by itself. -/
inductive Node
  | expr (e : Expr)
  | call (c : Call)
  | select (x : Select)

mutual

/-- An expression and the nodes in it. -/
def Expr.nodes : Expr → List Node
  | .call c => c.nodes
  | e@(.operation _ _ l r escape) => .expr e :: (l.nodes ++ r.nodes ++ optionNodes escape)
  | e@(.logic _ args) => .expr e :: exprNodes args
  | e@(.nullTest arg _) => .expr e :: arg.nodes
  | e@(.truthTest arg _) => .expr e :: arg.nodes
  | e@(.cast arg _ _) => .expr e :: arg.nodes
  | e@(.caseOf arg whens default) =>
    .expr e :: (optionNodes arg ++ whenNodes whens ++ optionNodes default)
  | e@(.coalesce args) => .expr e :: exprNodes args
  | e@(.link _ test _ _ q) => .expr e :: (optionNodes test ++ q.nodes)
  | e@(.inList arg list _) => .expr e :: (arg.nodes ++ exprNodes list)
  | e@(.between arg low high _) => .expr e :: (arg.nodes ++ low.nodes ++ high.nodes)
  | e@(.array es) => .expr e :: exprNodes es
  | e@(.unary _ arg) => .expr e :: arg.nodes
  | e@(.nested inner) => .expr e :: inner.nodes
  | e => [.expr e]

def exprNodes : List Expr → List Node
  | [] => []
  | e :: r => e.nodes ++ exprNodes r

def optionNodes : Option Expr → List Node
  | none => []
  | some e => e.nodes

def whenNodes : List When → List Node
  | [] => []
  | ⟨c, r⟩ :: ws => c.nodes ++ r.nodes ++ whenNodes ws

/-- A call and the nodes in it. -/
def Call.nodes : Call → List Node
  | c@⟨_, args, _, _, orderBy, withinGroup, filter, window⟩ =>
    .call c :: (argNodes args ++ sortNodes orderBy ++ sortNodes withinGroup ++ optionNodes filter ++
      windowNodes window)

def argNodes : List Arg → List Node
  | [] => []
  | .positional e :: r => e.nodes ++ argNodes r
  | .named _ _ e :: r => e.nodes ++ argNodes r

def windowNodes : Option Window → List Node
  | none => []
  | some ⟨partitionBy, orderBy, _⟩ => exprNodes partitionBy ++ sortNodes orderBy

def sortNodes : List SortItem → List Node
  | [] => []
  | ⟨e, _, _⟩ :: r => e.nodes ++ sortNodes r

def Query.nodes : Query → List Node
  | ⟨withClause, body, orderBy, limit, offset, _⟩ =>
    withNodes withClause ++ body.nodes ++ sortNodes orderBy ++ optionNodes limit ++ optionNodes offset

def withNodes : Option With → List Node
  | none => []
  | some ⟨_, ctes⟩ => cteNodes ctes

def cteNodes : List Cte → List Node
  | [] => []
  | ⟨_, _, q⟩ :: r => q.nodes ++ cteNodes r

def Body.nodes : Body → List Node
  | .select x => x.nodes
  | .setOp _ _ l r => l.nodes ++ r.nodes
  | .values rows => rowNodes rows
  | .query q => q.nodes

def rowNodes : List (List Expr) → List Node
  | [] => []
  | es :: r => exprNodes es ++ rowNodes r

/-- A select and the nodes in it. -/
def Select.nodes : Select → List Node
  | x@⟨distinct, targets, source, condition, groupBy, having⟩ =>
    .select x :: (distinctNodes distinct ++ targetNodes targets ++ fromNodes source ++
      optionNodes condition ++ exprNodes groupBy ++ optionNodes having)

def distinctNodes : Option Distinct → List Node
  | some (.on es) => exprNodes es
  | _ => []

def targetNodes : List Target → List Node
  | [] => []
  | ⟨e, _⟩ :: r => e.nodes ++ targetNodes r

def fromNodes : List FromItem → List Node
  | [] => []
  | f :: r => f.nodes ++ fromNodes r

def FromItem.nodes : FromItem → List Node
  | .function _ call _ => call.nodes
  | .subquery _ q _ => q.nodes
  | .join _ _ l r c => l.nodes ++ r.nodes ++ c.nodes
  | _ => []

def JoinCondition.nodes : JoinCondition → List Node
  | .on e => e.nodes
  | _ => []

end

def InsertSource.nodes : InsertSource → List Node
  | .values rows => rowNodes rows
  | .query q => q.nodes
  | .defaultValues => []

def assignmentNodes (as : List Assignment) : List Node :=
  exprNodes (as.map Assignment.value)

def OnConflict.nodes : OnConflict → List Node
  | ⟨_, .update as condition⟩ => assignmentNodes as ++ optionNodes condition
  | ⟨_, .nothing⟩ => []

def Insert.nodes (i : Insert) : List Node :=
  i.source.nodes ++ i.onConflict.elim [] OnConflict.nodes ++ targetNodes i.returning

def Update.nodes (u : Update) : List Node :=
  assignmentNodes u.assignments ++ optionNodes u.condition ++ targetNodes u.returning

def Delete.nodes (d : Delete) : List Node :=
  optionNodes d.condition ++ targetNodes d.returning

/-- The nodes of a statement. -/
def Statement.nodes : Statement → List Node
  | .select q => q.nodes
  | .insert i => i.nodes
  | .update u => u.nodes
  | .delete d => d.nodes

end SqlLayout.Layout
