import SqlLayout.Layout.Render
import SqlLayout.Proofs.Nodes

/-!
The texts of a tree in the order of its clauses. The layout leaves a few parts of a tree out: a query
whose select has no targets, the operands of `NOT` after the first, the arguments of a call with a star,
and the operator of a link without a left side. The other texts are written.
-/

namespace SqlLayout.Layout

/-- A text that stands in a tree. -/
inductive Leaf
  /-- A name, a type, a sign or a phrase, which is written as it is. -/
  | text (t : String)
  /-- The operator between two operands. -/
  | operator (op : String)
  /-- The last part of the name of a function. -/
  | function (name : String)
  | keyword (word : String)
  | const (c : Const)
  | param (n : Nat)

/-- How a text of the tree is written. -/
def Leaf.written (s : Style) : Leaf → String
  | .text t => t
  | .operator op => operatorText op
  | .function name => casedName s.functionCase name
  | .keyword word => Text.upper word
  | .const c => c.text
  | .param n => "$" ++ toString n

def textLeaves : Option String → List Leaf
  | none => []
  | some t => [.text t]

/-- The parts of the name of a function. -/
def nameLeaves (name : List String) : List Leaf :=
  match name.getLast? with
  | none => []
  | some last => name.dropLast.map .text ++ [.function last]

def TableName.leaves (t : TableName) : List Leaf :=
  textLeaves t.schema ++ [.text t.name] ++ textLeaves t.aliasName

mutual

/-- The texts of an expression. -/
def Expr.leaves : Expr → List Leaf
  | .column fields _ => fields.map .text
  | .keyword word => [.keyword word]
  | .const c => [.const c]
  | .param n => [.param n]
  | .call c => c.leaves
  | .operation _ op l r escape => l.leaves ++ [.operator op] ++ r.leaves ++ optionLeaves escape
  | .logic _ args => exprLeaves args
  | .nullTest e _ => e.leaves
  | .truthTest e _ => e.leaves
  | .cast e typeName _ => e.leaves ++ [.text typeName]
  | .caseOf arg whens default => optionLeaves arg ++ whenLeaves whens ++ optionLeaves default
  | .coalesce args => exprLeaves args
  | .link _ test op _ q => optionLeaves test ++ textLeaves op ++ q.leaves
  | .inList e list _ => e.leaves ++ exprLeaves list
  | .between e low high _ => e.leaves ++ low.leaves ++ high.leaves
  | .array es => exprLeaves es
  | .unary op e => .text op :: e.leaves
  | .nested e => e.leaves
  | .verbatim t => [.text t]

def exprLeaves : List Expr → List Leaf
  | [] => []
  | e :: r => e.leaves ++ exprLeaves r

def optionLeaves : Option Expr → List Leaf
  | none => []
  | some e => e.leaves

def whenLeaves : List When → List Leaf
  | [] => []
  | ⟨c, r⟩ :: ws => c.leaves ++ r.leaves ++ whenLeaves ws

def Call.leaves : Call → List Leaf
  | ⟨name, args, _, _, orderBy, withinGroup, filter, window⟩ =>
    nameLeaves name ++ argLeaves args ++ sortLeaves orderBy ++ sortLeaves withinGroup ++
      optionLeaves filter ++ windowLeaves window

def argLeaves : List Arg → List Leaf
  | [] => []
  | .positional e :: r => e.leaves ++ argLeaves r
  | .named name sign e :: r => [.text name, .text sign] ++ e.leaves ++ argLeaves r

def windowLeaves : Option Window → List Leaf
  | none => []
  | some ⟨partitionBy, orderBy, frame⟩ =>
    exprLeaves partitionBy ++ sortLeaves orderBy ++ textLeaves frame

def sortLeaves : List SortItem → List Leaf
  | [] => []
  | ⟨e, _, _⟩ :: r => e.leaves ++ sortLeaves r

/-- The texts of a query. -/
def Query.leaves : Query → List Leaf
  | ⟨withClause, body, orderBy, limit, offset, locking⟩ =>
    withLeaves withClause ++ body.leaves ++ sortLeaves orderBy ++ optionLeaves limit ++
      optionLeaves offset ++ locking.flatMap fun l => textLeaves l.of

def withLeaves : Option With → List Leaf
  | none => []
  | some ⟨_, ctes⟩ => cteLeaves ctes

def cteLeaves : List Cte → List Leaf
  | [] => []
  | ⟨name, materialized, q⟩ :: r =>
    [.text name] ++ textLeaves materialized ++ q.leaves ++ cteLeaves r

def Body.leaves : Body → List Leaf
  | .select x => x.leaves
  | .setOp _ _ l r => l.leaves ++ r.leaves
  | .values rows => rowLeaves rows
  | .query q => q.leaves

def rowLeaves : List (List Expr) → List Leaf
  | [] => []
  | es :: r => exprLeaves es ++ rowLeaves r

def Select.leaves : Select → List Leaf
  | ⟨distinct, targets, source, condition, groupBy, having⟩ =>
    distinctLeaves distinct ++ targetLeaves targets ++ fromLeaves source ++ optionLeaves condition ++
      exprLeaves groupBy ++ optionLeaves having

def distinctLeaves : Option Distinct → List Leaf
  | some (.on es) => exprLeaves es
  | _ => []

def targetLeaves : List Target → List Leaf
  | [] => []
  | ⟨e, name⟩ :: r => e.leaves ++ textLeaves name ++ targetLeaves r

def fromLeaves : List FromItem → List Leaf
  | [] => []
  | f :: r => f.leaves ++ fromLeaves r

/-- The texts of an item of `FROM`. The right side of a join comes before the join's own condition. -/
def FromItem.leaves : FromItem → List Leaf
  | .table t => t.leaves
  | .function _ call name => call.leaves ++ textLeaves name
  | .subquery _ q name => q.leaves ++ textLeaves name
  | .join _ _ l r condition => l.leaves ++ r.leaves ++ condition.leaves
  | .verbatim t => [.text t]

def JoinCondition.leaves : JoinCondition → List Leaf
  | .on e => e.leaves
  | .byColumns cs => cs.map .text
  | .none => []

end

def assignmentLeaves (as : List Assignment) : List Leaf :=
  as.flatMap fun x => .text x.target :: x.value.leaves

def ConflictTarget.leaves : ConflictTarget → List Leaf
  | .columns cs => cs.map .text
  | .onConstraint n => [.text n]

def OnConflict.leaves : OnConflict → List Leaf
  | ⟨target, .nothing⟩ => target.elim [] ConflictTarget.leaves
  | ⟨target, .update as condition⟩ =>
    target.elim [] ConflictTarget.leaves ++ assignmentLeaves as ++ optionLeaves condition

def InsertSource.leaves : InsertSource → List Leaf
  | .values rows => rowLeaves rows
  | .query q => q.leaves
  | .defaultValues => []

def Insert.leaves (i : Insert) : List Leaf :=
  [.text i.table] ++ textLeaves i.aliasName ++ i.columns.map .text ++ i.source.leaves ++
    i.onConflict.elim [] OnConflict.leaves ++ targetLeaves i.returning

def Update.leaves (u : Update) : List Leaf :=
  u.table.leaves ++ assignmentLeaves u.assignments ++ optionLeaves u.condition ++
    targetLeaves u.returning

def Delete.leaves (d : Delete) : List Leaf :=
  d.table.leaves ++ optionLeaves d.condition ++ targetLeaves d.returning

/-- The texts of a statement. -/
def Statement.leaves : Statement → List Leaf
  | .select q => q.leaves
  | .insert i => i.leaves
  | .update u => u.leaves
  | .delete d => d.leaves

/-! ### The texts that are written -/

/-- A body that leaves nothing of its query in the text. -/
def Body.isBlank : Body → Bool
  | .select x => x.targets.isEmpty
  | _ => false

mutual

/-- The texts of an expression that are written. -/
def Expr.emitted : Expr → List Leaf
  | .column fields _ => fields.map .text
  | .keyword word => [.keyword word]
  | .const c => [.const c]
  | .param n => [.param n]
  | .call c => c.emitted
  | .operation _ op l r escape => l.emitted ++ [.operator op] ++ r.emitted ++ optionEmitted escape
  | .logic .not args => firstEmitted args
  | .logic _ args => exprEmitted args
  | .nullTest e _ => e.emitted
  | .truthTest e _ => e.emitted
  | .cast e typeName _ => e.emitted ++ [.text typeName]
  | .caseOf arg whens default => optionEmitted arg ++ whenEmitted whens ++ optionEmitted default
  | .coalesce args => exprEmitted args
  | .link _ test op _ q => testEmitted op test ++ q.emitted
  | .inList e list _ => e.emitted ++ exprEmitted list
  | .between e low high _ => e.emitted ++ low.emitted ++ high.emitted
  | .array es => exprEmitted es
  | .unary op e => .text op :: e.emitted
  | .nested e => e.emitted
  | .verbatim t => [.text t]

def exprEmitted : List Expr → List Leaf
  | [] => []
  | e :: r => e.emitted ++ exprEmitted r

def firstEmitted : List Expr → List Leaf
  | [] => []
  | e :: _ => e.emitted

def testEmitted (op : Option String) : Option Expr → List Leaf
  | none => []
  | some e => e.emitted ++ textLeaves op

def optionEmitted : Option Expr → List Leaf
  | none => []
  | some e => e.emitted

def whenEmitted : List When → List Leaf
  | [] => []
  | ⟨c, r⟩ :: ws => c.emitted ++ r.emitted ++ whenEmitted ws

def Call.emitted : Call → List Leaf
  | ⟨name, args, _, star, orderBy, withinGroup, filter, window⟩ =>
    nameLeaves name ++ (if star then [] else argEmitted args) ++ sortEmitted orderBy ++ sortEmitted withinGroup ++
      optionEmitted filter ++ windowEmitted window

def argEmitted : List Arg → List Leaf
  | [] => []
  | .positional e :: r => e.emitted ++ argEmitted r
  | .named name sign e :: r => [.text name, .text sign] ++ e.emitted ++ argEmitted r

def windowEmitted : Option Window → List Leaf
  | none => []
  | some ⟨partitionBy, orderBy, frame⟩ =>
    exprEmitted partitionBy ++ sortEmitted orderBy ++ textLeaves frame

def sortEmitted : List SortItem → List Leaf
  | [] => []
  | ⟨e, _, _⟩ :: r => e.emitted ++ sortEmitted r

def Query.emitted : Query → List Leaf
  | ⟨withClause, body, orderBy, limit, offset, locking⟩ =>
    if body.isBlank then []
    else
      withEmitted withClause ++ body.emitted ++ sortEmitted orderBy ++ optionEmitted limit ++
        optionEmitted offset ++ locking.flatMap fun l => textLeaves l.of

def withEmitted : Option With → List Leaf
  | none => []
  | some ⟨_, ctes⟩ => cteEmitted ctes

def cteEmitted : List Cte → List Leaf
  | [] => []
  | ⟨name, materialized, q⟩ :: r =>
    [.text name] ++ textLeaves materialized ++ q.emitted ++ cteEmitted r

def Body.emitted : Body → List Leaf
  | .select x => x.emitted
  | .setOp _ _ l r => l.emitted ++ r.emitted
  | .values rows => rowEmitted rows
  | .query q => q.emitted

def rowEmitted : List (List Expr) → List Leaf
  | [] => []
  | es :: r => exprEmitted es ++ rowEmitted r

def Select.emitted : Select → List Leaf
  | ⟨distinct, targets, source, condition, groupBy, having⟩ =>
    if targets.isEmpty then []
    else
      distinctEmitted distinct ++ targetEmitted targets ++ fromEmitted source ++
        optionEmitted condition ++ exprEmitted groupBy ++ optionEmitted having

def distinctEmitted : Option Distinct → List Leaf
  | some (.on es) => exprEmitted es
  | _ => []

def targetEmitted : List Target → List Leaf
  | [] => []
  | ⟨e, name⟩ :: r => e.emitted ++ textLeaves name ++ targetEmitted r

def fromEmitted : List FromItem → List Leaf
  | [] => []
  | f :: r => f.emitted ++ fromEmitted r

def FromItem.emitted : FromItem → List Leaf
  | .table t => t.leaves
  | .function _ call name => call.emitted ++ textLeaves name
  | .subquery _ q name => q.emitted ++ textLeaves name
  | .join _ _ l r condition => l.emitted ++ r.emitted ++ condition.emitted
  | .verbatim t => [.text t]

def JoinCondition.emitted : JoinCondition → List Leaf
  | .on e => e.emitted
  | .byColumns cs => cs.map .text
  | .none => []

end

def assignmentEmitted (as : List Assignment) : List Leaf :=
  as.flatMap fun x => .text x.target :: x.value.emitted

def OnConflict.emitted : OnConflict → List Leaf
  | ⟨target, .nothing⟩ => target.elim [] ConflictTarget.leaves
  | ⟨target, .update as condition⟩ =>
    target.elim [] ConflictTarget.leaves ++ assignmentEmitted as ++ optionEmitted condition

def InsertSource.emitted : InsertSource → List Leaf
  | .values rows => rowEmitted rows
  | .query q => q.emitted
  | .defaultValues => []

def Insert.emitted (i : Insert) : List Leaf :=
  [.text i.table] ++ textLeaves i.aliasName ++ i.columns.map .text ++ i.source.emitted ++
    i.onConflict.elim [] OnConflict.emitted ++ targetEmitted i.returning

def Update.emitted (u : Update) : List Leaf :=
  u.table.leaves ++ assignmentEmitted u.assignments ++ optionEmitted u.condition ++
    targetEmitted u.returning

def Delete.emitted (d : Delete) : List Leaf :=
  d.table.leaves ++ optionEmitted d.condition ++ targetEmitted d.returning

/-- The texts of a statement that are written. -/
def Statement.emitted : Statement → List Leaf
  | .select q => q.emitted
  | .insert i => i.emitted
  | .update u => u.emitted
  | .delete d => d.emitted

/-- The parts of a tree that have no place in the text. -/
def Node.IsPlain : Node → Prop
  | .expr (.logic .not args) => args.length = 1
  | .expr (.link _ none op _ _) => op = none
  | .call c => c.star → c.args = []
  | .select x => x.targets ≠ []
  | _ => True

/-- Of the texts of some nodes a part is written, in its order, and all of it if the nodes are plain. -/
structure Emits (ns : List Node) (es ls : List Leaf) : Prop where
  sublist : es.Sublist ls
  whole : (∀ n ∈ ns, n.IsPlain) → es = ls

namespace Emits

variable {ns ns' : List Node} {es es' ls ls' : List Leaf}

theorem refl (ns : List Node) (ls : List Leaf) : Emits ns ls ls :=
  ⟨.refl ls, fun _ => rfl⟩

theorem node (n : Node) (h : Emits ns es ls) : Emits (n :: ns) es ls :=
  ⟨h.sublist, fun hplain => h.whole (List.forall_mem_cons.1 hplain).2⟩

theorem append (h : Emits ns es ls) (h' : Emits ns' es' ls') :
    Emits (ns ++ ns') (es ++ es') (ls ++ ls') := by
  refine ⟨h.sublist.append h'.sublist, fun hplain => ?_⟩
  obtain ⟨hns, hns'⟩ := List.forall_mem_append.1 hplain
  rw [h.whole hns, h'.whole hns']

theorem before (ts : List Leaf) (h : Emits ns es ls) : Emits ns (ts ++ es) (ts ++ ls) :=
  append (refl [] ts) h

theorem after (ts : List Leaf) (h : Emits ns es ls) : Emits ns (es ++ ts) (ls ++ ts) := by
  simpa using append h (refl [] ts)

/-- A part that is left out under a condition that no plain node meets. -/
theorem leftOut {p : Prop} [Decidable p] (hplain : (∀ n ∈ ns, n.IsPlain) → p → ls = [])
    (h : Emits ns es ls) : Emits ns (if p then [] else es) ls := by
  split
  · rename_i hp
    exact ⟨List.nil_sublist ls, fun hns => (hplain hns hp).symm⟩
  · exact h

end Emits

theorem Body.isBlank_eq_false {b : Body} (h : ∀ n ∈ b.nodes, n.IsPlain) : b.isBlank = false := by
  cases b with
  | select x =>
    obtain ⟨distinct, targets, source, condition, groupBy, having⟩ := x
    have htargets : targets ≠ [] := h _ List.mem_cons_self
    simpa [Body.isBlank] using htargets
  | setOp | values | query => rfl

mutual

theorem expr_emits : (e : Expr) → Emits e.nodes e.emitted e.leaves
  | .column .. | .keyword _ | .const _ | .param _ | .verbatim _ => .refl _ _
  | .call c => call_emits c
  | .operation _ op l r escape =>
    .node _ ((((expr_emits l).after [.operator op]).append (expr_emits r)).append (option_emits escape))
  | .logic .not args => first_emits args
  | .logic .and args => .node _ (exprs_emits args)
  | .logic .or args => .node _ (exprs_emits args)
  | .nullTest e _ => .node _ (expr_emits e)
  | .truthTest e _ => .node _ (expr_emits e)
  | .cast e typeName _ => .node _ ((expr_emits e).after [.text typeName])
  | .caseOf arg whens default =>
    .node _ (((option_emits arg).append (when_emits whens)).append (option_emits default))
  | .coalesce args => .node _ (exprs_emits args)
  | .link kind test op negated q => (test_emits kind negated q op test).append (query_emits q)
  | .inList e list _ => .node _ ((expr_emits e).append (exprs_emits list))
  | .between e low high _ =>
    .node _ (((expr_emits e).append (expr_emits low)).append (expr_emits high))
  | .array es => .node _ (exprs_emits es)
  | .unary op e => .node _ ((expr_emits e).before [.text op])
  | .nested e => .node _ (expr_emits e)

theorem first_emits : (args : List Expr) →
    Emits (.expr (.logic .not args) :: exprNodes args) (firstEmitted args) (exprLeaves args)
  | [] => .refl _ _
  | e :: r => by
    have he := expr_emits e
    refine ⟨he.sublist.trans (List.sublist_append_left _ _), fun h => ?_⟩
    simp only [exprNodes, List.forall_mem_cons, List.forall_mem_append] at h
    obtain ⟨hlength, he', -⟩ := h
    have hr : r = [] := List.length_eq_zero_iff.1 (Nat.succ.inj hlength)
    simp [firstEmitted, exprLeaves, hr, he.whole he']

theorem exprs_emits : (es : List Expr) → Emits (exprNodes es) (exprEmitted es) (exprLeaves es)
  | [] => .refl _ _
  | e :: r => (expr_emits e).append (exprs_emits r)

theorem option_emits : (e : Option Expr) → Emits (optionNodes e) (optionEmitted e) (optionLeaves e)
  | none => .refl _ _
  | some e => expr_emits e

/-- What stands before the keyword of a link. -/
theorem test_emits (kind : LinkKind) (negated : Bool) (q : Query) (op : Option String) :
    (test : Option Expr) →
    Emits (.expr (.link kind test op negated q) :: optionNodes test) (testEmitted op test)
      (optionLeaves test ++ textLeaves op)
  | none => by
    refine ⟨List.nil_sublist _, fun h => ?_⟩
    have hop : op = none := h _ List.mem_cons_self
    rw [hop]
    rfl
  | some e => .node _ ((expr_emits e).after (textLeaves op))

theorem when_emits : (ws : List When) → Emits (whenNodes ws) (whenEmitted ws) (whenLeaves ws)
  | [] => .refl _ _
  | ⟨c, r⟩ :: ws => ((expr_emits c).append (expr_emits r)).append (when_emits ws)

theorem call_emits : (c : Call) → Emits c.nodes c.emitted c.leaves
  | ⟨name, args, distinct, star, orderBy, withinGroup, filter, window⟩ => by
    have hargs :
        Emits (.call ⟨name, args, distinct, star, orderBy, withinGroup, filter, window⟩ :: argNodes args)
          (if star then [] else argEmitted args) (argLeaves args) := by
      refine .leftOut (fun h hstar => ?_) (.node _ (args_emits args))
      have hnone : args = [] := h _ List.mem_cons_self hstar
      rw [hnone]
      rfl
    exact ((((hargs.before (nameLeaves name)).append (sort_emits orderBy)).append
      (sort_emits withinGroup)).append (option_emits filter)).append (window_emits window)

theorem args_emits : (args : List Arg) → Emits (argNodes args) (argEmitted args) (argLeaves args)
  | [] => .refl _ _
  | .positional e :: r => (expr_emits e).append (args_emits r)
  | .named name sign e :: r =>
    ((expr_emits e).before [.text name, .text sign]).append (args_emits r)

theorem window_emits : (w : Option Window) →
    Emits (windowNodes w) (windowEmitted w) (windowLeaves w)
  | none => .refl _ _
  | some ⟨partitionBy, orderBy, frame⟩ =>
    ((exprs_emits partitionBy).append (sort_emits orderBy)).after (textLeaves frame)

theorem sort_emits : (items : List SortItem) →
    Emits (sortNodes items) (sortEmitted items) (sortLeaves items)
  | [] => .refl _ _
  | ⟨e, _, _⟩ :: r => (expr_emits e).append (sort_emits r)

theorem query_emits : (q : Query) → Emits q.nodes q.emitted q.leaves
  | ⟨withClause, body, orderBy, limit, offset, locking⟩ => by
    refine .leftOut (fun h hblank => ?_) ?_
    · simp only [Query.nodes, List.forall_mem_append] at h
      rw [Body.isBlank_eq_false h.1.1.1.2] at hblank
      cases hblank
    · exact (((((with_emits withClause).append (body_emits body)).append (sort_emits orderBy)).append
        (option_emits limit)).append (option_emits offset)).after _

theorem with_emits : (w : Option With) → Emits (withNodes w) (withEmitted w) (withLeaves w)
  | none => .refl _ _
  | some ⟨_, ctes⟩ => ctes_emits ctes

theorem ctes_emits : (cs : List Cte) → Emits (cteNodes cs) (cteEmitted cs) (cteLeaves cs)
  | [] => .refl _ _
  | ⟨name, materialized, q⟩ :: r =>
    ((query_emits q).before (.text name :: textLeaves materialized)).append (ctes_emits r)

theorem body_emits : (b : Body) → Emits b.nodes b.emitted b.leaves
  | .select x => select_emits x
  | .setOp _ _ l r => (body_emits l).append (body_emits r)
  | .values rows => rows_emits rows
  | .query q => query_emits q

theorem rows_emits : (rows : List (List Expr)) → Emits (rowNodes rows) (rowEmitted rows) (rowLeaves rows)
  | [] => .refl _ _
  | es :: r => (exprs_emits es).append (rows_emits r)

theorem select_emits : (x : Select) → Emits x.nodes x.emitted x.leaves
  | ⟨distinct, targets, source, condition, groupBy, having⟩ => by
    refine .leftOut (fun h hnone => ?_) ?_
    · exact absurd (List.isEmpty_iff.1 hnone) (h _ List.mem_cons_self)
    · exact .node _ ((((((distinct_emits distinct).append (targets_emits targets)).append
        (from_emits source)).append (option_emits condition)).append (exprs_emits groupBy)).append
        (option_emits having))

theorem distinct_emits : (x : Option Distinct) →
    Emits (distinctNodes x) (distinctEmitted x) (distinctLeaves x)
  | none => .refl _ _
  | some .rows => .refl _ _
  | some (.on es) => exprs_emits es

theorem targets_emits : (ts : List Target) → Emits (targetNodes ts) (targetEmitted ts) (targetLeaves ts)
  | [] => .refl _ _
  | ⟨e, name⟩ :: r => ((expr_emits e).after (textLeaves name)).append (targets_emits r)

theorem from_emits : (fs : List FromItem) → Emits (fromNodes fs) (fromEmitted fs) (fromLeaves fs)
  | [] => .refl _ _
  | f :: r => (fromItem_emits f).append (from_emits r)

theorem fromItem_emits : (f : FromItem) → Emits f.nodes f.emitted f.leaves
  | .table _ => .refl _ _
  | .function _ call name => (call_emits call).after (textLeaves name)
  | .subquery _ q name => (query_emits q).after (textLeaves name)
  | .join _ _ l r c => ((fromItem_emits l).append (fromItem_emits r)).append (joinCondition_emits c)
  | .verbatim _ => .refl _ _

theorem joinCondition_emits : (c : JoinCondition) → Emits c.nodes c.emitted c.leaves
  | .on e => expr_emits e
  | .byColumns _ => .refl _ _
  | .none => .refl _ _

end

theorem assignments_emits (as : List Assignment) :
    Emits (assignmentNodes as) (assignmentEmitted as) (assignmentLeaves as) := by
  induction as with
  | nil => exact .refl _ _
  | cons x r ih => exact ((expr_emits x.value).before [.text x.target]).append ih

theorem onConflict_emits : (c : Option OnConflict) →
    Emits (c.elim [] OnConflict.nodes) (c.elim [] OnConflict.emitted) (c.elim [] OnConflict.leaves)
  | none => .refl _ _
  | some ⟨_, .nothing⟩ => .refl _ _
  | some ⟨target, .update as condition⟩ =>
    ((assignments_emits as).before (target.elim [] ConflictTarget.leaves)).append
      (option_emits condition)

theorem insertSource_emits (x : InsertSource) : Emits x.nodes x.emitted x.leaves := by
  cases x with
  | values rows => exact rows_emits rows
  | query q => exact query_emits q
  | defaultValues => exact .refl _ _

/-- The texts of a statement that are written come from it, in their order. -/
theorem statement_emits (t : Statement) : Emits t.nodes t.emitted t.leaves := by
  cases t with
  | select q => exact query_emits q
  | insert i =>
    exact (((insertSource_emits i.source).before
      ([.text i.table] ++ textLeaves i.aliasName ++ i.columns.map .text)).append
      (onConflict_emits i.onConflict)).append (targets_emits i.returning)
  | update u =>
    exact (((assignments_emits u.assignments).before u.table.leaves).append
      (option_emits u.condition)).append (targets_emits u.returning)
  | delete x =>
    exact ((option_emits x.condition).before x.table.leaves).append (targets_emits x.returning)

end SqlLayout.Layout
