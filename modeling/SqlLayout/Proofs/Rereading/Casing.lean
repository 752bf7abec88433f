import SqlLayout.Layout.Render
import SqlLayout.Proofs.Emission
import SqlLayout.Proofs.Soundness

/-!
Trees with the names of functions as they are written. Nothing but the case of these names differs, and
both trees have the same layout.
-/

namespace SqlLayout.Layout

/-- The name of a function as it is written. -/
def nameCased (s : Style) (name : List String) : List String :=
  match name.getLast? with
  | none => []
  | some last => name.dropLast ++ [casedName s.functionCase last]

mutual

/-- An expression with the names of functions as they are written. -/
def Expr.cased (s : Style) : Expr → Expr
  | .column fields star => .column fields star
  | .keyword w => .keyword w
  | .const c => .const c
  | .param n => .param n
  | .call c => .call (c.cased s)
  | .operation q op l r escape => .operation q op (l.cased s) (r.cased s) (optionCased s escape)
  | .logic c args => .logic c (exprsCased s args)
  | .nullTest e t => .nullTest (e.cased s) t
  | .truthTest e t => .truthTest (e.cased s) t
  | .cast e typeName bounds => .cast (e.cased s) typeName bounds
  | .caseOf arg whens default => .caseOf (optionCased s arg) (whensCased s whens) (optionCased s default)
  | .coalesce args => .coalesce (exprsCased s args)
  | .link kind test op negated q => .link kind (optionCased s test) op negated (q.cased s)
  | .inList e list negated => .inList (e.cased s) (exprsCased s list) negated
  | .between e low high negated => .between (e.cased s) (low.cased s) (high.cased s) negated
  | .array es => .array (exprsCased s es)
  | .unary op e => .unary op (e.cased s)
  | .nested e => .nested (e.cased s)
  | .verbatim t => .verbatim t

def exprsCased (s : Style) : List Expr → List Expr
  | [] => []
  | e :: r => e.cased s :: exprsCased s r

def optionCased (s : Style) : Option Expr → Option Expr
  | none => none
  | some e => some (e.cased s)

def whensCased (s : Style) : List When → List When
  | [] => []
  | ⟨c, r⟩ :: ws => ⟨c.cased s, r.cased s⟩ :: whensCased s ws

def Call.cased (s : Style) : Call → Call
  | ⟨name, args, distinct, star, orderBy, withinGroup, filter, window⟩ =>
    ⟨nameCased s name, argsCased s args, distinct, star, sortCased s orderBy, sortCased s withinGroup,
      optionCased s filter, windowCased s window⟩

def argsCased (s : Style) : List Arg → List Arg
  | [] => []
  | .positional e :: r => .positional (e.cased s) :: argsCased s r
  | .named name sign e :: r => .named name sign (e.cased s) :: argsCased s r

def windowCased (s : Style) : Option Window → Option Window
  | none => none
  | some ⟨partitionBy, orderBy, frame⟩ => some ⟨exprsCased s partitionBy, sortCased s orderBy, frame⟩

def sortCased (s : Style) : List SortItem → List SortItem
  | [] => []
  | ⟨e, direction, nulls⟩ :: r => ⟨e.cased s, direction, nulls⟩ :: sortCased s r

/-- A query with the names of functions as they are written. -/
def Query.cased (s : Style) : Query → Query
  | ⟨withClause, body, orderBy, limit, offset, locking⟩ =>
    ⟨withCased s withClause, body.cased s, sortCased s orderBy, optionCased s limit,
      optionCased s offset, locking⟩

def withCased (s : Style) : Option With → Option With
  | none => none
  | some ⟨isRecursive, ctes⟩ => some ⟨isRecursive, ctesCased s ctes⟩

def ctesCased (s : Style) : List Cte → List Cte
  | [] => []
  | ⟨name, materialized, q⟩ :: r => ⟨name, materialized, q.cased s⟩ :: ctesCased s r

def Body.cased (s : Style) : Body → Body
  | .select x => .select (x.cased s)
  | .setOp op all l r => .setOp op all (l.cased s) (r.cased s)
  | .values rows => .values (rowsCased s rows)
  | .query q => .query (q.cased s)

def rowsCased (s : Style) : List (List Expr) → List (List Expr)
  | [] => []
  | es :: r => exprsCased s es :: rowsCased s r

def Select.cased (s : Style) : Select → Select
  | ⟨distinct, targets, source, condition, groupBy, having⟩ =>
    ⟨distinctCased s distinct, targetsCased s targets, fromCased s source, optionCased s condition,
      exprsCased s groupBy, optionCased s having⟩

def distinctCased (s : Style) : Option Distinct → Option Distinct
  | none => none
  | some .rows => some .rows
  | some (.on es) => some (.on (exprsCased s es))

def targetsCased (s : Style) : List Target → List Target
  | [] => []
  | ⟨e, name⟩ :: r => ⟨e.cased s, name⟩ :: targetsCased s r

def fromCased (s : Style) : List FromItem → List FromItem
  | [] => []
  | f :: r => f.cased s :: fromCased s r

def FromItem.cased (s : Style) : FromItem → FromItem
  | .table t => .table t
  | .function isLateral call name => .function isLateral (call.cased s) name
  | .subquery isLateral q name => .subquery isLateral (q.cased s) name
  | .join kind natural l r condition => .join kind natural (l.cased s) (r.cased s) (condition.cased s)
  | .verbatim t => .verbatim t

def JoinCondition.cased (s : Style) : JoinCondition → JoinCondition
  | .on e => .on (e.cased s)
  | .byColumns cs => .byColumns cs
  | .none => .none

end

def Assignment.cased (s : Style) (x : Assignment) : Assignment :=
  ⟨x.target, x.value.cased s⟩

def ConflictAction.cased (s : Style) : ConflictAction → ConflictAction
  | .nothing => .nothing
  | .update as condition => .update (as.map (·.cased s)) (optionCased s condition)

def InsertSource.cased (s : Style) : InsertSource → InsertSource
  | .values rows => .values (rowsCased s rows)
  | .query q => .query (q.cased s)
  | .defaultValues => .defaultValues

def Insert.cased (s : Style) (i : Insert) : Insert :=
  { i with
    source := i.source.cased s
    onConflict := i.onConflict.map fun c => ⟨c.target, c.action.cased s⟩
    returning := targetsCased s i.returning }

def Update.cased (s : Style) (u : Update) : Update :=
  { u with
    assignments := u.assignments.map (·.cased s)
    condition := optionCased s u.condition
    returning := targetsCased s u.returning }

def Delete.cased (s : Style) (d : Delete) : Delete :=
  { d with condition := optionCased s d.condition, returning := targetsCased s d.returning }

/-- A statement with the names of functions as they are written. -/
def Statement.cased (s : Style) : Statement → Statement
  | .select q => .select (q.cased s)
  | .insert i => .insert (i.cased s)
  | .update u => .update (u.cased s)
  | .delete d => .delete (d.cased s)

@[simp] theorem cased_isNested (s : Style) (e : Expr) : (e.cased s).isNested = e.isNested := by
  cases e <;> rfl

@[simp] theorem cased_isLogic (s : Style) (c : Connective) (e : Expr) :
  (e.cased s).isLogic c = e.isLogic c := by
  cases e <;> rfl

/-! ### The layout -/

theorem casedName_casedName (c : NameCase) (name : String) :
    casedName c (casedName c name) = casedName c name := by
  have hcase : Text.asciiLower (casedName c name) = Text.asciiLower name := by
    simpa [Text.eqIgnoreCase] using casedName_eqIgnoreCase c name
  have hknown : knownName? c (casedName c name) = knownName? c name := by
    simp only [knownName?, Text.eqIgnoreCase, hcase]
  conv_lhs => rw [casedName, hknown]
  unfold casedName
  cases knownName? c name <;> rfl

theorem functionName_cased (s : Style) (name : List String) :
    functionName s (nameCased s name) = functionName s name := by
  unfold functionName nameCased
  cases hlast : name.getLast? with
  | none => rfl
  | some last => simp [casedName_casedName]

variable (s : Style)

mutual

theorem expr_cased : (e : Expr) → (d : Nat) → (isOperand : Bool) →
    (e.cased s).pieces s d isOperand = e.pieces s d isOperand
  | .column _ _, _, _ => rfl
  | .keyword _, _, _ => rfl
  | .const _, _, _ => rfl
  | .param _, _, _ => rfl
  | .call c, d, _ => by rw [Expr.cased, Expr.pieces, Expr.pieces, call_cased c d]
  | .operation q op l r escape, d, _ => by
    simp only [Expr.cased, Expr.pieces, expr_cased l d false, expr_cased r d false,
      option_cased escape d]
  | .logic .not args, d, _ => by simp only [Expr.cased, Expr.pieces, first_cased args d]
  | .logic .and args, d, _ => by simp only [Expr.cased, Expr.pieces, chain_cased .and args]
  | .logic .or args, d, _ => by simp only [Expr.cased, Expr.pieces, chain_cased .or args]
  | .nullTest e _, d, _ => by simp only [Expr.cased, Expr.pieces, expr_cased e d false]
  | .truthTest e _, d, _ => by simp only [Expr.cased, Expr.pieces, expr_cased e d false]
  | .cast e _ _, d, _ => by simp only [Expr.cased, Expr.pieces, expr_cased e d false]
  | .caseOf arg whens default, d, _ => by
    simp only [Expr.cased, Expr.pieces, option_cased arg d, whens_cased whens d, option_cased default d]
  | .coalesce args, d, _ => by simp only [Expr.cased, Expr.pieces, exprs_cased args d]
  | .link kind test op _ q, d, _ => by
    simp only [Expr.cased, Expr.pieces, test_cased test op d, query_cased q (d + 1)]
  | .inList e list _, d, _ => by
      simp only [Expr.cased, Expr.pieces, expr_cased e d false, exprs_cased list d]
  | .between e low high _, d, _ => by
    simp only [Expr.cased, Expr.pieces, expr_cased e d false, expr_cased low d false,
      expr_cased high d false]
  | .array es, d, _ => by simp only [Expr.cased, Expr.pieces, exprs_cased es d]
  | .unary _ e, d, _ => by simp only [Expr.cased, Expr.pieces, expr_cased e d false]
  | .nested e, d, _ => by simp only [Expr.cased, Expr.pieces, expr_cased e d false]
  | .verbatim _, _, _ => rfl

theorem first_cased : (es : List Expr) → (d : Nat) → firstOperand s d (exprsCased s es) =
    firstOperand s d es
  | [], _ => rfl
  | e :: _, d => expr_cased e d true

theorem chain_cased (c : Connective) : (es : List Expr) → (d : Nat) →
    chainPieces s d c (exprsCased s es) = chainPieces s d c es
  | [], _ => rfl
  | e :: r, d => by simp only [exprsCased, chainPieces, expr_cased e d true, rest_cased c r d]

theorem rest_cased (c : Connective) : (es : List Expr) → (d : Nat) →
    chainRest s d c (exprsCased s es) = chainRest s d c es
  | [], _ => rfl
  | e :: r, d => by simp only [exprsCased, chainRest, expr_cased e (d + 1) true, rest_cased c r d]

theorem exprs_cased : (es : List Expr) → (d : Nat) → exprPieces s d (exprsCased s es) = exprPieces s d es
  | [], _ => rfl
  | e :: r, d => by simp only [exprsCased, exprPieces, expr_cased e d false, exprs_cased r d]

theorem option_cased {lead : List Piece} : (o : Option Expr) → (d : Nat) →
    optionPieces s d lead (optionCased s o) = optionPieces s d lead o
  | none, _ => rfl
  | some e, d => by simp only [optionCased, optionPieces, expr_cased e d false]

theorem test_cased : (o : Option Expr) → (op : Option String) → (d : Nat) →
    testPieces s d op (optionCased s o) = testPieces s d op o
  | none, _, _ => rfl
  | some e, _, d => by simp only [optionCased, testPieces, expr_cased e d false]

theorem whens_cased : (ws : List When) → (d : Nat) → whenPieces s d (whensCased s ws) = whenPieces s d ws
  | [], _ => rfl
  | ⟨c, r⟩ :: ws, d => by
    simp only [whensCased, whenPieces, expr_cased c d false, expr_cased r d false, whens_cased ws d]

theorem call_cased : (c : Call) → (d : Nat) → (c.cased s).pieces s d = c.pieces s d
  | ⟨name, args, distinct, star, orderBy, withinGroup, filter, window⟩, d => by
    simp only [Call.cased, Call.pieces, functionName_cased s name, args_cased args d,
      sort_cased orderBy d, sort_cased withinGroup d, filter_cased filter d, window_cased window d]

theorem filter_cased : (o : Option Expr) → (d : Nat) → filterPieces s d (optionCased s o) =
    filterPieces s d o
  | none, _ => rfl
  | some e, d => by simp only [optionCased, filterPieces, expr_cased e d false]

theorem args_cased : (as : List Arg) → (d : Nat) → argPieces s d (argsCased s as) = argPieces s d as
  | [], _ => rfl
  | .positional e :: r, d => by simp only [argsCased, argPieces, expr_cased e d false, args_cased r d]
  | .named _ _ e :: r, d => by simp only [argsCased, argPieces, expr_cased e d false, args_cased r d]

theorem window_cased : (w : Option Window) → (d : Nat) → windowPieces s d (windowCased s w) =
    windowPieces s d w
  | none, _ => rfl
  | some ⟨partitionBy, orderBy, _⟩, d => by
    simp only [windowCased, windowPieces, Window.pieces, exprs_cased partitionBy d, sort_cased orderBy d]

theorem sort_cased : (items : List SortItem) → (d : Nat) → sortPieces s d (sortCased s items) =
    sortPieces s d items
  | [], _ => rfl
  | ⟨e, _, _⟩ :: r, d => by simp only [sortCased, sortPieces, expr_cased e d false, sort_cased r d]

theorem query_cased : (q : Query) → (d : Nat) → (q.cased s).pieces s d = q.pieces s d
  | ⟨withClause, body, orderBy, limit, offset, _⟩, d => by
    simp only [Query.cased, Query.pieces, with_cased withClause d, body_cased body d,
      sort_cased orderBy d, option_cased limit d, option_cased offset d]

theorem with_cased : (w : Option With) → (d : Nat) → withPieces s d (withCased s w) = withPieces s d w
  | none, _ => rfl
  | some ⟨_, ctes⟩, d => by simp only [withCased, withPieces, With.pieces, ctes_cased ctes d]

theorem ctes_cased : (cs : List Cte) → (d : Nat) → ctePieces s d (ctesCased s cs) = ctePieces s d cs
  | [], _ => rfl
  | ⟨_, _, q⟩ :: r, d => by simp only [ctesCased, ctePieces, query_cased q (d + 1), ctes_cased r d]

theorem body_cased : (b : Body) → (d : Nat) → (b.cased s).pieces s d = b.pieces s d
  | .select x, d => by simp only [Body.cased, Body.pieces, select_cased x d]
  | .setOp _ _ l r, d => by simp only [Body.cased, Body.pieces, body_cased l d, body_cased r d]
  | .values rows, d => by simp only [Body.cased, Body.pieces, rows_cased rows d]
  | .query q, d => by simp only [Body.cased, Body.pieces, query_cased q (d + 1)]

theorem rows_cased : (rows : List (List Expr)) → (d : Nat) → rowPieces s d (rowsCased s rows) =
    rowPieces s d rows
  | [], _ => rfl
  | es :: r, d => by simp only [rowsCased, rowPieces, exprs_cased es (d + 1), rows_cased r d]

theorem select_cased : (x : Select) → (d : Nat) → (x.cased s).pieces s d = x.pieces s d
  | ⟨distinct, targets, source, condition, groupBy, having⟩, d => by
    simp only [Select.cased, Select.pieces, distinct_cased distinct d,
      targets_cased targets (d + 1), from_cased source d,
      option_cased condition d, exprs_cased groupBy d, option_cased having d]

theorem distinct_cased : (x : Option Distinct) → (d : Nat) →
    distinctPieces s d (distinctCased s x) = distinctPieces s d x
  | none, _ => rfl
  | some .rows, _ => rfl
  | some (.on es), d => by simp only [distinctCased, distinctPieces, Distinct.pieces, exprs_cased es d]

theorem targets_cased : (ts : List Target) → (d : Nat) → targetPieces s d (targetsCased s ts) =
    targetPieces s d ts
  | [], _ => rfl
  | ⟨e, _⟩ :: r, d => by simp only [targetsCased, targetPieces, expr_cased e d false, targets_cased r d]

theorem from_cased : (fs : List FromItem) → (d : Nat) → fromPieces s d (fromCased s fs) =
    fromPieces s d fs
  | [], _ => rfl
  | f :: r, d => by simp only [fromCased, fromPieces, item_cased f d, from_cased r d]

theorem item_cased : (f : FromItem) → (d : Nat) → (f.cased s).pieces s d = f.pieces s d
  | .table _, _ => rfl
  | .function _ call _, d => by simp only [FromItem.cased, FromItem.pieces, call_cased call d]
  | .subquery _ q _, d => by simp only [FromItem.cased, FromItem.pieces, query_cased q (d + 1)]
  | .join _ _ l r condition, d => by
    simp only [FromItem.cased, FromItem.pieces, item_cased l d, item_cased r _,
      joinCondition_cased condition _]
  | .verbatim _, _ => rfl

theorem joinCondition_cased : (c : JoinCondition) → (d : Nat) → (c.cased s).pieces s d = c.pieces s d
  | .on e, d => by simp only [JoinCondition.cased, JoinCondition.pieces, expr_cased e _ false]
  | .byColumns _, _ => rfl
  | .none, _ => rfl

end

theorem returning_cased (ts : List Target) : returningPieces s (targetsCased s ts) =
    returningPieces s ts := by
  have hempty : (targetsCased s ts).isEmpty = ts.isEmpty := by
    cases ts with
    | nil => rfl
    | cons t r =>
      obtain ⟨e, name⟩ := t
      rfl
  rw [returningPieces, hempty, targets_cased, returningPieces]

theorem assignments_cased (as : List Assignment) :
    assignmentPieces s (as.map (·.cased s)) = assignmentPieces s as := by
  simp only [assignmentPieces, List.map_map, Function.comp_def, Assignment.cased, expr_cased]

/-- A tree with the names as they are written is laid out as the tree itself. -/
theorem pieces_cased (t : Statement) : (t.cased s).pieces s = t.pieces s := by
  cases t with
  | select q => exact query_cased s q 0
  | insert i =>
    obtain ⟨table, aliasName, columns, source, onConflict, returning⟩ := i
    have hsource : (source.cased s).pieces s = source.pieces s := by
      cases source with
      | values rows => simp only [InsertSource.cased, InsertSource.pieces, rows_cased]
      | query q => exact query_cased s q 0
      | defaultValues => rfl
    have haction (c : OnConflict) : (OnConflict.mk c.target (c.action.cased s)).pieces s =
        c.pieces s := by
      obtain ⟨target, action⟩ := c
      cases action with
      | nothing => rfl
      | update as condition =>
        simp only [OnConflict.pieces, ConflictAction.cased, ConflictAction.pieces,
          assignments_cased, wherePieces, option_cased]
    cases onConflict with
    | none =>
      simp [Statement.cased, Statement.pieces, Insert.cased, Insert.pieces, hsource, returning_cased]
    | some c =>
      simp [Statement.cased, Statement.pieces, Insert.cased, Insert.pieces, hsource, haction,
        returning_cased]
  | update u =>
    simp [Statement.cased, Statement.pieces, Update.cased, Update.pieces, assignments_cased,
      wherePieces, option_cased, returning_cased]
  | delete d =>
    simp [Statement.cased, Statement.pieces, Delete.cased, Delete.pieces, wherePieces, option_cased,
      returning_cased]

theorem render_cased (t : Statement) : (t.cased s).render s = t.render s := by
  rw [Statement.render, pieces_cased, Statement.render]

end SqlLayout.Layout
