import SqlLayout.Proofs.Emission
import SqlLayout.Proofs.QueryClauses

/-!
The comparisons in a layout. A comparison with a value or with the elements of an array is written with
the one spelling of its operator, and a comparison with the rows of a query with the operator as it was
read. What stands in the parentheses on the right side tells which of the two a quantified comparison
becomes.
-/

namespace SqlLayout.Layout

/-- A comparison; `withRows` tells that its right side is a query. -/
structure Comparison where
  op : String
  withRows : Bool
  deriving DecidableEq, Repr

/-- The text of the tree that the operator is. -/
def Comparison.leaf (c : Comparison) : Leaf :=
  if c.withRows then .text c.op else .operator c.op

/-- The operator as it is written. -/
def Comparison.written (s : Style) (c : Comparison) : String :=
  c.leaf.written s

/-- "Not equal" is written in one way only. -/
def Comparison.IsCanonical (s : Style) (c : Comparison) : Prop :=
  c.written s ≠ "<>" ∧ (c.op = "<>" → c.written s = "!=")

theorem operatorText_ne (op : String) : operatorText op ≠ "<>" := by
  unfold operatorText
  split
  · decide
  · rename_i hop
    simpa using hop

/-- The spelling goes wrong where the right side is a query. -/
theorem Comparison.isCanonical_iff (s : Style) (c : Comparison) :
    c.IsCanonical s ↔ (c.withRows → c.op ≠ "<>") := by
  obtain ⟨op, withRows⟩ := c
  cases withRows with
  | false =>
    refine iff_of_true ⟨operatorText_ne op, ?_⟩ nofun
    rintro rfl
    rfl
  | true => exact ⟨fun h _ => h.1, fun h => ⟨h rfl, fun hop => absurd hop (h rfl)⟩⟩

/-! ### The comparisons of a tree -/

mutual

/-- The comparisons of an expression that are written, in the order of their operators. -/
def Expr.comparisons : Expr → List Comparison
  | .call c => c.comparisons
  | .operation _ op l r escape =>
    l.comparisons ++ [⟨op, false⟩] ++ r.comparisons ++ optionComparisons escape
  | .logic .not args => firstComparisons args
  | .logic _ args => exprComparisons args
  | .nullTest e _ => e.comparisons
  | .truthTest e _ => e.comparisons
  | .cast e _ _ => e.comparisons
  | .caseOf arg whens default =>
    optionComparisons arg ++ whenComparisons whens ++ optionComparisons default
  | .coalesce args => exprComparisons args
  | .link _ test op _ q => testComparisons op test ++ q.comparisons
  | .inList e list _ => e.comparisons ++ exprComparisons list
  | .between e low high _ => e.comparisons ++ low.comparisons ++ high.comparisons
  | .array es => exprComparisons es
  | .unary _ e => e.comparisons
  | .nested e => e.comparisons
  | _ => []

def exprComparisons : List Expr → List Comparison
  | [] => []
  | e :: r => e.comparisons ++ exprComparisons r

def firstComparisons : List Expr → List Comparison
  | [] => []
  | e :: _ => e.comparisons

def testComparisons (op : Option String) : Option Expr → List Comparison
  | none => []
  | some e => e.comparisons ++ (op.map (Comparison.mk · true)).toList

def optionComparisons : Option Expr → List Comparison
  | none => []
  | some e => e.comparisons

def whenComparisons : List When → List Comparison
  | [] => []
  | ⟨c, r⟩ :: ws => c.comparisons ++ r.comparisons ++ whenComparisons ws

def Call.comparisons : Call → List Comparison
  | ⟨_, args, _, star, orderBy, withinGroup, filter, window⟩ =>
    (if star then [] else argComparisons args) ++ sortComparisons orderBy ++
      sortComparisons withinGroup ++ optionComparisons filter ++ windowComparisons window

def argComparisons : List Arg → List Comparison
  | [] => []
  | .positional e :: r => e.comparisons ++ argComparisons r
  | .named _ _ e :: r => e.comparisons ++ argComparisons r

def windowComparisons : Option Window → List Comparison
  | none => []
  | some ⟨partitionBy, orderBy, _⟩ => exprComparisons partitionBy ++ sortComparisons orderBy

def sortComparisons : List SortItem → List Comparison
  | [] => []
  | ⟨e, _, _⟩ :: r => e.comparisons ++ sortComparisons r

def Query.comparisons : Query → List Comparison
  | ⟨withClause, body, orderBy, limit, offset, _⟩ =>
    if body.isBlank then []
    else
      withComparisons withClause ++ body.comparisons ++ sortComparisons orderBy ++
        optionComparisons limit ++ optionComparisons offset

def withComparisons : Option With → List Comparison
  | none => []
  | some ⟨_, ctes⟩ => cteComparisons ctes

def cteComparisons : List Cte → List Comparison
  | [] => []
  | ⟨_, _, q⟩ :: r => q.comparisons ++ cteComparisons r

def Body.comparisons : Body → List Comparison
  | .select x => x.comparisons
  | .setOp _ _ l r => l.comparisons ++ r.comparisons
  | .values rows => rowComparisons rows
  | .query q => q.comparisons

def rowComparisons : List (List Expr) → List Comparison
  | [] => []
  | es :: r => exprComparisons es ++ rowComparisons r

def Select.comparisons : Select → List Comparison
  | ⟨distinct, targets, source, condition, groupBy, having⟩ =>
    if targets.isEmpty then []
    else
      distinctComparisons distinct ++ targetComparisons targets ++ fromComparisons source ++
        optionComparisons condition ++ exprComparisons groupBy ++ optionComparisons having

def distinctComparisons : Option Distinct → List Comparison
  | some (.on es) => exprComparisons es
  | _ => []

def targetComparisons : List Target → List Comparison
  | [] => []
  | ⟨e, _⟩ :: r => e.comparisons ++ targetComparisons r

def fromComparisons : List FromItem → List Comparison
  | [] => []
  | f :: r => f.comparisons ++ fromComparisons r

def FromItem.comparisons : FromItem → List Comparison
  | .function _ call _ => call.comparisons
  | .subquery _ q _ => q.comparisons
  | .join _ _ l r condition => l.comparisons ++ r.comparisons ++ condition.comparisons
  | _ => []

def JoinCondition.comparisons : JoinCondition → List Comparison
  | .on e => e.comparisons
  | _ => []

end

def OnConflict.comparisons : OnConflict → List Comparison
  | ⟨_, .nothing⟩ => []
  | ⟨_, .update as condition⟩ =>
    exprComparisons (as.map Assignment.value) ++ optionComparisons condition

def InsertSource.comparisons : InsertSource → List Comparison
  | .values rows => rowComparisons rows
  | .query q => q.comparisons
  | .defaultValues => []

/-- The comparisons of a statement that are written. -/
def Statement.comparisons : Statement → List Comparison
  | .select q => q.comparisons
  | .insert i =>
    i.source.comparisons ++ i.onConflict.elim [] OnConflict.comparisons ++
      targetComparisons i.returning
  | .update u =>
    exprComparisons (u.assignments.map Assignment.value) ++ optionComparisons u.condition ++
      targetComparisons u.returning
  | .delete d => optionComparisons d.condition ++ targetComparisons d.returning

/-! ### Their operators among the texts -/

def Leaf.isOperator : Leaf → Bool
  | .operator _ => true
  | _ => false

/-- The operators of comparisons stand among the texts in their order, and the texts have no other
operators between two operands. -/
structure Compares (cs : List Comparison) (ls : List Leaf) : Prop where
  sublist : (cs.map Comparison.leaf).Sublist ls
  operators : ls.filter Leaf.isOperator = (cs.map Comparison.leaf).filter Leaf.isOperator

namespace Compares

variable {cs cs' : List Comparison} {ls ls' : List Leaf}

theorem none (h : ∀ l ∈ ls, l.isOperator = false) : Compares [] ls :=
  ⟨List.nil_sublist ls, List.filter_eq_nil_iff.2 fun l hl => by simp [h l hl]⟩

theorem nil : Compares [] [] :=
  none nofun

theorem append (h : Compares cs ls) (h' : Compares cs' ls') : Compares (cs ++ cs') (ls ++ ls') := by
  constructor
  · rw [List.map_append]
    exact h.sublist.append h'.sublist
  · rw [List.map_append, List.filter_append, List.filter_append, h.operators, h'.operators]

theorem comparison (c : Comparison) : Compares [c] [c.leaf] :=
  ⟨.refl _, rfl⟩

theorem before {ts : List Leaf} (hts : ∀ l ∈ ts, l.isOperator = false) (h : Compares cs ls) :
    Compares cs (ts ++ ls) :=
  (none hts).append h

theorem after {ts : List Leaf} (h : Compares cs ls) (hts : ∀ l ∈ ts, l.isOperator = false) :
    Compares cs (ls ++ ts) := by
  simpa using h.append (none hts)

theorem ite {p : Prop} [Decidable p] (h : Compares cs ls) :
    Compares (if p then [] else cs) (if p then [] else ls) := by
  split
  · exact nil
  · exact h

end Compares

theorem not_operator_texts (ts : List String) : ∀ l ∈ ts.map Leaf.text, l.isOperator = false :=
  List.forall_mem_map.2 fun _ _ => rfl

theorem not_operator_option (t : Option String) : ∀ l ∈ textLeaves t, l.isOperator = false := by
  cases t with
  | none => exact nofun
  | some t => exact not_operator_texts [t]

theorem not_operator_name (name : List String) : ∀ l ∈ nameLeaves name, l.isOperator = false := by
  unfold nameLeaves
  split
  · exact List.forall_mem_nil _
  · exact List.forall_mem_append.2 ⟨not_operator_texts _, List.forall_mem_singleton.2 rfl⟩

theorem not_operator_table (t : TableName) : ∀ l ∈ t.leaves, l.isOperator = false := by
  simp only [TableName.leaves, List.forall_mem_append]
  exact ⟨⟨not_operator_option t.schema, not_operator_texts [t.name]⟩, not_operator_option t.aliasName⟩

theorem not_operator_conflict (target : Option ConflictTarget) :
    ∀ l ∈ target.elim [] ConflictTarget.leaves, l.isOperator = false := by
  match target with
  | none => exact nofun
  | some (.columns cs) => exact not_operator_texts cs
  | some (.onConstraint n) => exact not_operator_texts [n]

mutual

theorem expr_compares : (e : Expr) → Compares e.comparisons e.emitted
  | .column fields _ => .none (not_operator_texts fields)
  | .keyword _ | .const _ | .param _ | .verbatim _ => .none (List.forall_mem_singleton.2 rfl)
  | .call c => call_compares c
  | .operation _ op l r escape =>
    (((expr_compares l).append (.comparison ⟨op, false⟩)).append (expr_compares r)).append
      (option_compares escape)
  | .logic .not args => first_compares args
  | .logic .and args => exprs_compares args
  | .logic .or args => exprs_compares args
  | .nullTest e _ => expr_compares e
  | .truthTest e _ => expr_compares e
  | .cast e typeName _ => (expr_compares e).after (not_operator_texts [typeName])
  | .caseOf arg whens default =>
    ((option_compares arg).append (whens_compares whens)).append (option_compares default)
  | .coalesce args => exprs_compares args
  | .link _ test op _ q => (test_compares op test).append (query_compares q)
  | .inList e list _ => (expr_compares e).append (exprs_compares list)
  | .between e low high _ => ((expr_compares e).append (expr_compares low)).append (expr_compares high)
  | .array es => exprs_compares es
  | .unary op e => (expr_compares e).before (not_operator_texts [op])
  | .nested e => expr_compares e

theorem exprs_compares : (es : List Expr) → Compares (exprComparisons es) (exprEmitted es)
  | [] => .nil
  | e :: r => (expr_compares e).append (exprs_compares r)

theorem first_compares : (args : List Expr) → Compares (firstComparisons args) (firstEmitted args)
  | [] => .nil
  | e :: _ => expr_compares e

/-- The operator before a query is written as it is. -/
theorem test_compares (op : Option String) : (test : Option Expr) →
    Compares (testComparisons op test) (testEmitted op test)
  | none => .nil
  | some e => by
    refine (expr_compares e).append ?_
    cases op with
    | none => exact .nil
    | some o => exact .comparison ⟨o, true⟩

theorem option_compares : (e : Option Expr) → Compares (optionComparisons e) (optionEmitted e)
  | none => .nil
  | some e => expr_compares e

theorem whens_compares : (ws : List When) → Compares (whenComparisons ws) (whenEmitted ws)
  | [] => .nil
  | ⟨c, r⟩ :: ws => ((expr_compares c).append (expr_compares r)).append (whens_compares ws)

theorem call_compares : (c : Call) → Compares c.comparisons c.emitted
  | ⟨name, args, _, _, orderBy, withinGroup, filter, window⟩ =>
    (((((args_compares args).ite.before (not_operator_name name)).append (sorts_compares orderBy)).append
      (sorts_compares withinGroup)).append (option_compares filter)).append (window_compares window)

theorem args_compares : (args : List Arg) → Compares (argComparisons args) (argEmitted args)
  | [] => .nil
  | .positional e :: r => (expr_compares e).append (args_compares r)
  | .named name sign e :: r =>
    ((expr_compares e).before (not_operator_texts [name, sign])).append (args_compares r)

theorem window_compares : (w : Option Window) → Compares (windowComparisons w) (windowEmitted w)
  | none => .nil
  | some ⟨partitionBy, orderBy, frame⟩ =>
    ((exprs_compares partitionBy).append (sorts_compares orderBy)).after (not_operator_option frame)

theorem sorts_compares : (items : List SortItem) → Compares (sortComparisons items) (sortEmitted items)
  | [] => .nil
  | ⟨e, _, _⟩ :: r => (expr_compares e).append (sorts_compares r)

theorem query_compares : (q : Query) → Compares q.comparisons q.emitted
  | ⟨withClause, body, orderBy, limit, offset, locking⟩ => by
    refine .ite ?_
    have hlocking : ∀ l ∈ locking.flatMap (fun x => textLeaves x.of), l.isOperator = false :=
      List.forall_mem_flatMap.2 fun x _ => not_operator_option x.of
    exact (((((with_compares withClause).append (body_compares body)).append
      (sorts_compares orderBy)).append (option_compares limit)).append
      (option_compares offset)).after hlocking

theorem with_compares : (w : Option With) → Compares (withComparisons w) (withEmitted w)
  | none => .nil
  | some ⟨_, ctes⟩ => ctes_compares ctes

theorem ctes_compares : (cs : List Cte) → Compares (cteComparisons cs) (cteEmitted cs)
  | [] => .nil
  | ⟨name, materialized, q⟩ :: r =>
    ((query_compares q).before (List.forall_mem_append.2
      ⟨not_operator_texts [name], not_operator_option materialized⟩)).append (ctes_compares r)

theorem body_compares : (b : Body) → Compares b.comparisons b.emitted
  | .select x => select_compares x
  | .setOp _ _ l r => (body_compares l).append (body_compares r)
  | .values rows => rows_compares rows
  | .query q => query_compares q

theorem rows_compares : (rows : List (List Expr)) → Compares (rowComparisons rows) (rowEmitted rows)
  | [] => .nil
  | es :: r => (exprs_compares es).append (rows_compares r)

theorem select_compares : (x : Select) → Compares x.comparisons x.emitted
  | ⟨distinct, targets, source, condition, groupBy, having⟩ =>
    .ite ((((((distinct_compares distinct).append (targets_compares targets)).append
      (from_compares source)).append (option_compares condition)).append
      (exprs_compares groupBy)).append (option_compares having))

theorem distinct_compares : (x : Option Distinct) →
    Compares (distinctComparisons x) (distinctEmitted x)
  | none => .nil
  | some .rows => .nil
  | some (.on es) => exprs_compares es

theorem targets_compares : (ts : List Target) → Compares (targetComparisons ts) (targetEmitted ts)
  | [] => .nil
  | ⟨e, name⟩ :: r =>
    ((expr_compares e).after (not_operator_option name)).append (targets_compares r)

theorem from_compares : (fs : List FromItem) → Compares (fromComparisons fs) (fromEmitted fs)
  | [] => .nil
  | f :: r => (fromItem_compares f).append (from_compares r)

theorem fromItem_compares : (f : FromItem) → Compares f.comparisons f.emitted
  | .table t => .none (not_operator_table t)
  | .function _ call name => (call_compares call).after (not_operator_option name)
  | .subquery _ q name => (query_compares q).after (not_operator_option name)
  | .join _ _ l r c =>
    ((fromItem_compares l).append (fromItem_compares r)).append (joinCondition_compares c)
  | .verbatim t => .none (not_operator_texts [t])

theorem joinCondition_compares : (c : JoinCondition) → Compares c.comparisons c.emitted
  | .on e => expr_compares e
  | .byColumns cs => .none (not_operator_texts cs)
  | .none => .nil

end

theorem assignments_compares (as : List Assignment) :
    Compares (exprComparisons (as.map Assignment.value)) (assignmentEmitted as) := by
  induction as with
  | nil => exact .nil
  | cons x r ih => exact ((expr_compares x.value).before (not_operator_texts [x.target])).append ih

theorem onConflict_compares : (c : Option OnConflict) →
    Compares (c.elim [] OnConflict.comparisons) (c.elim [] OnConflict.emitted)
  | none => .nil
  | some ⟨target, .nothing⟩ => .none (not_operator_conflict target)
  | some ⟨target, .update as condition⟩ =>
    ((assignments_compares as).before (not_operator_conflict target)).append (option_compares condition)

theorem insertSource_compares : (x : InsertSource) → Compares x.comparisons x.emitted
  | .values rows => rows_compares rows
  | .query q => query_compares q
  | .defaultValues => .nil

theorem statement_compares : (t : Statement) → Compares t.comparisons t.emitted
  | .select q => query_compares q
  | .insert i => by
    have hlead : ∀ l ∈ [Leaf.text i.table] ++ textLeaves i.aliasName ++ i.columns.map Leaf.text,
        l.isOperator = false := by
      simp only [List.forall_mem_append]
      exact ⟨⟨not_operator_texts [i.table], not_operator_option i.aliasName⟩,
        not_operator_texts i.columns⟩
    exact (((insertSource_compares i.source).before hlead).append
      (onConflict_compares i.onConflict)).append (targets_compares i.returning)
  | .update u =>
    (((assignments_compares u.assignments).before (not_operator_table u.table)).append
      (option_compares u.condition)).append (targets_compares u.returning)
  | .delete x =>
    ((option_compares x.condition).before (not_operator_table x.table)).append
      (targets_compares x.returning)

end SqlLayout.Layout
