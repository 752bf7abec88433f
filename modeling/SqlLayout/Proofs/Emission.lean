import SqlLayout.Proofs.Fences
import SqlLayout.Proofs.Leaves

/-!
The texts of the tree among the pieces of its layout. A statement's pieces hold those texts that are
written, in the order of the clauses, and nothing else but text that the layout writes.
-/

namespace SqlLayout.Layout

open Piece (newline sepBy commas)

/-! ### Texts of pieces -/

/-- The text of the tree that a piece is, if it is one. -/
def Piece.leaf? : Piece → Option String
  | .leaf t => some t
  | _ => none

/-- The texts of the tree among pieces. -/
def leafTexts (ps : List Piece) : List String :=
  ps.filterMap Piece.leaf?

variable {s : Style} {ps qs : List Piece} {pss : List (List Piece)}

@[simp] theorem leafTexts_nil : leafTexts [] = [] := rfl

@[simp] theorem leafTexts_mark (m : String) : leafTexts (.mark m :: ps) = leafTexts ps := rfl

@[simp] theorem leafTexts_leaf (t : String) : leafTexts (.leaf t :: ps) = t :: leafTexts ps := rfl

@[simp] theorem leafTexts_lineBreak : leafTexts (.lineBreak :: ps) = leafTexts ps := rfl

@[simp] theorem leafTexts_indent (d : Nat) : leafTexts (.indent d :: ps) = leafTexts ps := rfl

@[simp] theorem leafTexts_append : leafTexts (ps ++ qs) = leafTexts ps ++ leafTexts qs :=
  List.filterMap_append

@[simp] theorem leafTexts_newline (d : Nat) : leafTexts (newline d) = [] := rfl

theorem leafTexts_sepBy {separator : List Piece} (h : leafTexts separator = []) :
    leafTexts (sepBy separator pss) = pss.flatMap leafTexts := by
  fun_induction sepBy separator pss with
  | case1 => rfl
  | case2 => simp
  | case3 ps qs r ih => simp [h, ih]

@[simp] theorem leafTexts_sepBy_mark (m : String) :
    leafTexts (sepBy [.mark m] pss) = pss.flatMap leafTexts :=
  leafTexts_sepBy rfl

@[simp] theorem leafTexts_leaves (separator : String) (ts : List String) :
    leafTexts (Piece.leaves separator ts) = ts := by
  simp [Piece.leaves, List.flatMap_map]

@[simp] theorem leafTexts_brackets (n : Nat) : leafTexts (List.replicate n (.mark "[]")) = [] := by
  induction n with
  | zero => rfl
  | succ n ih => simpa [List.replicate] using ih

@[simp] theorem leafTexts_notMark (negated : Bool) : leafTexts (notMark negated) = [] := by
  cases negated <;> rfl

@[simp] theorem leafTexts_columnPieces (fields : List String) (wildcard : Bool) :
    leafTexts (columnPieces fields wildcard) = fields := by
  cases fields with
  | nil => rfl
  | cons w ws => cases wildcard <;> simp [columnPieces]

@[simp] theorem written_comp_text : Leaf.written s ∘ Leaf.text = id := rfl

@[simp] theorem map_written_textLeaves (name : Option String) :
    (textLeaves name).map (Leaf.written s) = name.toList := by
  cases name <;> rfl

@[simp] theorem leafTexts_aliasPieces (name : Option String) :
    leafTexts (aliasPieces name) = name.toList := by
  cases name <;> rfl

@[simp] theorem leafTexts_functionName (name : List String) :
    leafTexts (functionName s name) = (nameLeaves name).map (Leaf.written s) := by
  unfold functionName nameLeaves
  cases name.getLast? with
  | none => rfl
  | some last => simp [Leaf.written]

theorem leafTexts_tableName (s : Style) (t : TableName) :
    leafTexts t.pieces = t.leaves.map (Leaf.written s) := by
  obtain ⟨schema, name, aliasName⟩ := t
  cases schema <;> simp [TableName.pieces, TableName.leaves, Leaf.written]

@[simp] theorem leafTexts_locking (l : Locking) : leafTexts l.pieces = l.of.toList := by
  obtain ⟨strength, of, waiting⟩ := l
  cases of <;> cases waiting <;> rfl

/-- A clause that is left out when it has no item. -/
theorem leafTexts_clause {lead separator : List Piece} (hlead : leafTexts lead = [])
    (hseparator : leafTexts separator = []) :
    leafTexts (if pss.isEmpty then [] else lead ++ sepBy separator pss) = pss.flatMap leafTexts := by
  cases pss with
  | nil => rfl
  | cons ps pss => simp [hlead, leafTexts_sepBy hseparator]

theorem flatMap_leafTexts_clause (lead : String) :
    ((if pss.isEmpty then [] else [[.mark lead] ++ commas pss]).flatMap leafTexts) =
      pss.flatMap leafTexts := by
  cases pss with
  | nil => rfl
  | cons ps pss => simp

theorem leafTexts_sortClause {lead closing : String} :
    leafTexts (sortClause lead [.mark ", "] pss closing) = pss.flatMap leafTexts := by
  cases pss with
  | nil => rfl
  | cons ps pss => simp [sortClause]

theorem leafTexts_lockings (s : Style) (ls : List Locking) (d : Nat) :
    leafTexts ((ls.map fun l => newline d ++ l.pieces).flatten) =
      (ls.flatMap fun l => textLeaves l.of).map (Leaf.written s) := by
  induction ls with
  | nil => rfl
  | cons l r ih => simp [ih]

/-! ### Expressions and queries -/

theorem targetPieces_isEmpty (s : Style) (d : Nat) (ts : List Target) :
    (targetPieces s d ts).isEmpty = ts.isEmpty := by
  cases ts with
  | nil => rfl
  | cons t r =>
    obtain ⟨e, name⟩ := t
    simp only [targetPieces, List.isEmpty_cons]

theorem body_isEmpty (s : Style) (d : Nat) (b : Body) : (b.pieces s d).isEmpty = b.isBlank := by
  match b with
  | .select ⟨_, targets, _, _, _, _⟩ =>
    simp only [Body.pieces, Select.pieces, targetPieces_isEmpty, Body.isBlank]
    cases targets <;> simp
  | .setOp .. =>
    rw [Bool.eq_iff_iff, List.isEmpty_iff]
    simp [Body.pieces, Body.isBlank]
  | .values _ => simp [Body.pieces, Body.isBlank]
  | .query _ => simp [Body.pieces, Body.isBlank]

mutual

theorem leafTexts_expr : (e : Expr) → (d : Nat) → (isOperand : Bool) →
    leafTexts (e.pieces s d isOperand) = e.emitted.map (Leaf.written s)
  | .column fields wildcard, _, _ => by simp [Expr.pieces, Expr.emitted]
  | .keyword _, _, _ => rfl
  | .const _, _, _ => rfl
  | .param _, _, _ => rfl
  | .call c, d, _ => leafTexts_call c d
  | .operation q op l r escape, d, _ => by
    simp [Expr.pieces, Expr.emitted, leafTexts_expr l d false, leafTexts_expr r d false,
      leafTexts_option [.mark " ESCAPE "] escape d rfl, Leaf.written]
  | .logic .not args, d, _ => by simp [Expr.pieces, Expr.emitted, leafTexts_first args d]
  | .logic .and args, d, isOperand => by
    simp only [Expr.pieces, Expr.emitted]
    split <;> simp [leafTexts_chain .and args]
  | .logic .or args, d, isOperand => by
    simp only [Expr.pieces, Expr.emitted]
    split <;> simp [leafTexts_chain .or args]
  | .nullTest e t, d, _ => by simp [Expr.pieces, Expr.emitted, leafTexts_expr e d false]
  | .truthTest e t, d, _ => by simp [Expr.pieces, Expr.emitted, leafTexts_expr e d false]
  | .cast e typeName bounds, d, _ => by
    simp [Expr.pieces, Expr.emitted, leafTexts_expr e d false, Leaf.written]
  | .caseOf arg whens default, d, _ => by
    simp [Expr.pieces, Expr.emitted, leafTexts_option [.mark " "] arg d rfl, leafTexts_when whens d,
      leafTexts_option [.mark " ELSE "] default d rfl]
  | .coalesce args, d, _ => by simp [Expr.pieces, Expr.emitted, leafTexts_exprs args d]
  | .link kind test op negated q, d, _ => by
    simp [Expr.pieces, Expr.emitted, leafTexts_test test op d, leafTexts_query q (d + 1)]
  | .inList e list negated, d, _ => by
    simp [Expr.pieces, Expr.emitted, leafTexts_expr e d false, leafTexts_exprs list d]
  | .between e low high negated, d, _ => by
    simp [Expr.pieces, Expr.emitted, leafTexts_expr e d false, leafTexts_expr low d false,
      leafTexts_expr high d false]
  | .array es, d, _ => by simp [Expr.pieces, Expr.emitted, leafTexts_exprs es d]
  | .unary op e, d, _ => by
    have hblank : leafTexts (if startsWithSign s (e.pieces s d false) then [.mark " "] else []) = [] := by
      split <;> rfl
    simp [Expr.pieces, Expr.emitted, hblank, leafTexts_expr e d false, Leaf.written]
  | .nested e, d, _ => by simp [Expr.pieces, Expr.emitted, leafTexts_expr e d false]
  | .verbatim _, _, _ => rfl

theorem leafTexts_first : (args : List Expr) → (d : Nat) →
    leafTexts (firstOperand s d args) = (firstEmitted args).map (Leaf.written s)
  | [], _ => rfl
  | e :: _, d => leafTexts_expr e d true

theorem leafTexts_chain (c : Connective) : (args : List Expr) → (d : Nat) →
    leafTexts (chainPieces s d c args) = (exprEmitted args).map (Leaf.written s)
  | [], _ => rfl
  | e :: r, d => by
    simp [chainPieces, exprEmitted, leafTexts_expr e d true, leafTexts_chainRest c r d]

theorem leafTexts_chainRest (c : Connective) : (args : List Expr) → (d : Nat) →
    leafTexts (chainRest s d c args) = (exprEmitted args).map (Leaf.written s)
  | [], _ => rfl
  | e :: r, d => by
    simp [chainRest, exprEmitted, leafTexts_expr e (d + 1) true, leafTexts_chainRest c r d]

theorem leafTexts_exprs : (es : List Expr) → (d : Nat) →
    (exprPieces s d es).flatMap leafTexts = (exprEmitted es).map (Leaf.written s)
  | [], _ => rfl
  | e :: r, d => by simp [exprPieces, exprEmitted, leafTexts_expr e d false, leafTexts_exprs r d]

theorem leafTexts_option (lead : List Piece) : (e : Option Expr) → (d : Nat) → leafTexts lead = [] →
    leafTexts (optionPieces s d lead e) = (optionEmitted e).map (Leaf.written s)
  | none, _, _ => rfl
  | some e, d, hlead => by simp [optionPieces, optionEmitted, hlead, leafTexts_expr e d false]

theorem leafTexts_test : (test : Option Expr) → (op : Option String) → (d : Nat) →
    leafTexts (testPieces s d op test) = (testEmitted op test).map (Leaf.written s)
  | none, _, _ => rfl
  | some e, op, d => by
    cases op <;> simp [testPieces, testEmitted, textLeaves, leafTexts_expr e d false, Leaf.written]

theorem leafTexts_when : (ws : List When) → (d : Nat) →
    leafTexts (whenPieces s d ws) = (whenEmitted ws).map (Leaf.written s)
  | [], _ => rfl
  | ⟨c, r⟩ :: ws, d => by
    simp [whenPieces, whenEmitted, leafTexts_expr c d false, leafTexts_expr r d false,
      leafTexts_when ws d]

theorem leafTexts_call : (c : Call) → (d : Nat) →
    leafTexts (c.pieces s d) = c.emitted.map (Leaf.written s)
  | ⟨name, args, distinct, star, orderBy, withinGroup, filter, window⟩, d => by
    have hdistinct : leafTexts (if distinct then [.mark "DISTINCT "] else []) = [] := by
      split <;> rfl
    have hargs : leafTexts (if star then [.mark "*"] else commas (argPieces s d args)) =
        (if star then [] else argEmitted args).map (Leaf.written s) := by
      split
      · rfl
      · simp [leafTexts_args args d]
    simp [Call.pieces, Call.emitted, hdistinct, hargs, leafTexts_sortClause, leafTexts_sort orderBy d,
      leafTexts_sort withinGroup d, leafTexts_filter filter d, leafTexts_window window d]

theorem leafTexts_filter : (filter : Option Expr) → (d : Nat) →
    leafTexts (filterPieces s d filter) = (optionEmitted filter).map (Leaf.written s)
  | none, _ => rfl
  | some e, d => by simp [filterPieces, optionEmitted, leafTexts_expr e d false]

theorem leafTexts_args : (args : List Arg) → (d : Nat) →
    (argPieces s d args).flatMap leafTexts = (argEmitted args).map (Leaf.written s)
  | [], _ => rfl
  | .positional e :: r, d => by simp [argPieces, argEmitted, leafTexts_expr e d false, leafTexts_args r d]
  | .named name sign e :: r, d => by
    simp [argPieces, argEmitted, leafTexts_expr e d false, leafTexts_args r d, Leaf.written]

theorem leafTexts_sort : (items : List SortItem) → (d : Nat) →
    (sortPieces s d items).flatMap leafTexts = (sortEmitted items).map (Leaf.written s)
  | [], _ => rfl
  | ⟨e, direction, nulls⟩ :: r, d => by
    cases nulls <;> simp [sortPieces, sortEmitted, leafTexts_expr e d false, leafTexts_sort r d]

theorem leafTexts_window : (w : Option Window) → (d : Nat) →
    leafTexts (windowPieces s d w) = (windowEmitted w).map (Leaf.written s)
  | none, _ => rfl
  | some ⟨partitionBy, orderBy, frame⟩, d => by
    simp only [windowPieces, Window.pieces, windowEmitted, leafTexts_append, leafTexts_sepBy_mark,
      List.flatMap_append, flatMap_leafTexts_clause, leafTexts_exprs partitionBy d,
      leafTexts_sort orderBy d, List.map_append]
    cases frame <;> simp [textLeaves, Leaf.written]

theorem leafTexts_query : (q : Query) → (d : Nat) →
    leafTexts (q.pieces s d) = q.emitted.map (Leaf.written s)
  | ⟨withClause, body, orderBy, limit, offset, locking⟩, d => by
    have hcomma : leafTexts (.mark "," :: newline (d + 1)) = [] := rfl
    have hlead (w : String) : leafTexts (newline d ++ [.mark w]) = [] := rfl
    simp only [Query.pieces, Query.emitted, body_isEmpty]
    split
    · rfl
    · simp only [leafTexts_append, List.map_append, leafTexts_with withClause d, leafTexts_body body d,
        leafTexts_clause (hlead _) hcomma, leafTexts_sort orderBy d,
        leafTexts_option _ limit d (hlead _), leafTexts_option _ offset d (hlead _),
        leafTexts_lockings s]

theorem leafTexts_with : (w : Option With) → (d : Nat) →
    leafTexts (withPieces s d w) = (withEmitted w).map (Leaf.written s)
  | none, _ => rfl
  | some ⟨isRecursive, ctes⟩, d => by
    have hrecursive : leafTexts (if isRecursive then [.mark "RECURSIVE "] else []) = [] := by
      split <;> rfl
    simp [withPieces, With.pieces, withEmitted, hrecursive, leafTexts_ctes ctes d]

theorem leafTexts_ctes : (cs : List Cte) → (d : Nat) →
    (ctePieces s d cs).flatMap leafTexts = (cteEmitted cs).map (Leaf.written s)
  | [], _ => rfl
  | ⟨name, materialized, q⟩ :: r, d => by
    cases materialized <;>
      simp [ctePieces, cteEmitted, textLeaves, leafTexts_query q (d + 1), leafTexts_ctes r d,
        Leaf.written]

theorem leafTexts_body : (b : Body) → (d : Nat) →
    leafTexts (b.pieces s d) = b.emitted.map (Leaf.written s)
  | .select x, d => leafTexts_select x d
  | .setOp op all l r, d => by
    simp [Body.pieces, Body.emitted, leafTexts_body l d, leafTexts_body r d]
  | .values rows, d => by simp [Body.pieces, Body.emitted, leafTexts_rows rows d]
  | .query q, d => by simp [Body.pieces, Body.emitted, leafTexts_query q (d + 1)]

theorem leafTexts_rows : (rows : List (List Expr)) → (d : Nat) →
    (rowPieces s d rows).flatMap leafTexts = (rowEmitted rows).map (Leaf.written s)
  | [], _ => rfl
  | es :: r, d => by
    simp [rowPieces, rowEmitted, List.flatMap_map, leafTexts_exprs es (d + 1), leafTexts_rows r d]

theorem leafTexts_select : (x : Select) → (d : Nat) →
    leafTexts (x.pieces s d) = x.emitted.map (Leaf.written s)
  | ⟨distinct, targets, source, condition, groupBy, having⟩, d => by
    have hcomma : leafTexts [.mark ", "] = [] := rfl
    have hlead (w : String) : leafTexts (newline d ++ [.mark w]) = [] := rfl
    have hlines : (((targetPieces s (d + 1) targets).map (newline (d + 1) ++ ·)).flatMap leafTexts) =
        (targetEmitted targets).map (Leaf.written s) := by
      simp [List.flatMap_map, leafTexts_targets targets (d + 1)]
    simp only [Select.pieces, Select.emitted, targetPieces_isEmpty]
    split
    · rfl
    · simp only [leafTexts_append, List.map_append, leafTexts_distinct distinct d,
        leafTexts_sepBy_mark, hlines, leafTexts_clause (hlead _) hcomma, leafTexts_from source d,
        leafTexts_option _ condition d (hlead _), leafTexts_exprs groupBy d,
        leafTexts_option _ having d (hlead _)]
      rfl

theorem leafTexts_distinct : (x : Option Distinct) → (d : Nat) →
    leafTexts (distinctPieces s d x) = (distinctEmitted x).map (Leaf.written s)
  | none, _ => rfl
  | some .rows, _ => rfl
  | some (.on es), d => by
    simp [distinctPieces, Distinct.pieces, distinctEmitted, leafTexts_exprs es d]

theorem leafTexts_targets : (ts : List Target) → (d : Nat) →
    (targetPieces s d ts).flatMap leafTexts = (targetEmitted ts).map (Leaf.written s)
  | [], _ => rfl
  | ⟨e, name⟩ :: r, d => by
    cases name <;>
      simp [targetPieces, targetEmitted, leafTexts_expr e d false, leafTexts_targets r d]

theorem leafTexts_from : (fs : List FromItem) → (d : Nat) →
    (fromPieces s d fs).flatMap leafTexts = (fromEmitted fs).map (Leaf.written s)
  | [], _ => rfl
  | f :: r, d => by simp [fromPieces, fromEmitted, leafTexts_fromItem f d, leafTexts_from r d]

theorem leafTexts_fromItem : (f : FromItem) → (d : Nat) →
    leafTexts (f.pieces s d) = f.emitted.map (Leaf.written s)
  | .table t, _ => leafTexts_tableName s t
  | .function isLateral call name, d => by
    have hlateral : leafTexts (if isLateral then [.mark "LATERAL "] else []) = [] := by
      split <;> rfl
    simp [FromItem.pieces, FromItem.emitted, hlateral, leafTexts_call call d]
  | .subquery isLateral q name, d => by
    have hlateral : leafTexts (if isLateral then [.mark "LATERAL "] else []) = [] := by
      split <;> rfl
    simp [FromItem.pieces, FromItem.emitted, hlateral, leafTexts_query q (d + 1)]
  | .join kind natural l r condition, d => by
    have hnatural : leafTexts (if natural then [.mark "NATURAL "] else []) = [] := by
      split <;> rfl
    simp [FromItem.pieces, FromItem.emitted, hnatural, leafTexts_fromItem l d, leafTexts_fromItem r,
      leafTexts_joinCondition condition]
  | .verbatim _, _ => rfl

theorem leafTexts_joinCondition : (c : JoinCondition) → (d : Nat) →
    leafTexts (c.pieces s d) = c.emitted.map (Leaf.written s)
  | .on e, d => by
    simp only [JoinCondition.pieces, JoinCondition.emitted]
    split <;> simp [leafTexts_expr e]
  | .byColumns cs, _ => by simp [JoinCondition.pieces, JoinCondition.emitted]
  | .none, _ => rfl

end

/-! ### Statements -/

theorem leafTexts_where (condition : Option Expr) :
    leafTexts (wherePieces s condition) = (optionEmitted condition).map (Leaf.written s) :=
  leafTexts_option _ condition 0 rfl

theorem leafTexts_returning (ts : List Target) :
    leafTexts (returningPieces s ts) = (targetEmitted ts).map (Leaf.written s) := by
  rw [← leafTexts_targets ts 0, returningPieces]
  split
  · simp_all [targetPieces]
  · simp

theorem leafTexts_assignments (as : List Assignment) :
    leafTexts (assignmentPieces s as) = (assignmentEmitted as).map (Leaf.written s) := by
  simp only [assignmentPieces, assignmentEmitted, leafTexts_sepBy_mark, List.flatMap_map,
    List.map_flatMap]
  simp [leafTexts_expr, Leaf.written]

theorem leafTexts_conflictTarget (t : ConflictTarget) :
    leafTexts t.pieces = t.leaves.map (Leaf.written s) := by
  cases t with
  | columns cs => simp [ConflictTarget.pieces, ConflictTarget.leaves]
  | onConstraint n => rfl

theorem leafTexts_onConflict (c : OnConflict) :
    leafTexts (c.pieces s) = c.emitted.map (Leaf.written s) := by
  obtain ⟨target, action⟩ := c
  cases action with
  | nothing =>
    cases target <;>
      simp [OnConflict.pieces, OnConflict.emitted, ConflictAction.pieces,
        leafTexts_conflictTarget (s := s)]
  | update as condition =>
    cases target <;>
      simp [OnConflict.pieces, OnConflict.emitted, ConflictAction.pieces,
        leafTexts_conflictTarget (s := s), leafTexts_assignments as, leafTexts_where condition]

theorem leafTexts_insertSource (x : InsertSource) :
    leafTexts (x.pieces s) = x.emitted.map (Leaf.written s) := by
  cases x with
  | values rows => simp [InsertSource.pieces, InsertSource.emitted, leafTexts_rows rows 0]
  | query q => exact leafTexts_query q 0
  | defaultValues => rfl

theorem leafTexts_insert (i : Insert) : leafTexts (i.pieces s) = i.emitted.map (Leaf.written s) := by
  obtain ⟨table, aliasName, columns, source, onConflict, returning⟩ := i
  have hcolumns : leafTexts
      (if columns.isEmpty then newline 0
        else [.mark "("] ++ sepBy [.mark ","] (columns.map fun c => newline 1 ++ [.leaf c]) ++
          newline 0 ++ [.mark ") "]) = (columns.map Leaf.text).map (Leaf.written s) := by
    cases columns with
    | nil => rfl
    | cons c cs => simp [List.flatMap_map, Leaf.written]
  simp only [Insert.pieces, Insert.emitted, leafTexts_append, List.map_append, hcolumns,
    leafTexts_insertSource source, leafTexts_returning returning]
  congr 4
  · cases aliasName <;> rfl
  · cases onConflict with
    | none => rfl
    | some c => exact leafTexts_onConflict c

theorem leafTexts_update (u : Update) : leafTexts (u.pieces s) = u.emitted.map (Leaf.written s) := by
  simp [Update.pieces, Update.emitted, leafTexts_tableName s, leafTexts_assignments, leafTexts_where,
    leafTexts_returning]

theorem leafTexts_delete (x : Delete) : leafTexts (x.pieces s) = x.emitted.map (Leaf.written s) := by
  simp [Delete.pieces, Delete.emitted, leafTexts_tableName s, leafTexts_where, leafTexts_returning]

/-- The texts among the pieces of a statement are those of its texts that are written. -/
theorem leafTexts_emitted (s : Style) (t : Statement) :
    leafTexts (t.pieces s) = t.emitted.map (Leaf.written s) := by
  cases t with
  | select q => exact leafTexts_query q 0
  | insert i => exact leafTexts_insert i
  | update u => exact leafTexts_update u
  | delete x => exact leafTexts_delete x

theorem leafTexts_statement (s : Style) (t : Statement) (h : ∀ n ∈ t.nodes, n.IsPlain) :
    leafTexts (t.pieces s) = t.leaves.map (Leaf.written s) := by
  rw [leafTexts_emitted, (statement_emits t).whole h]

/-! ### The text of a statement -/

/-- A name in the case of the style is the same name up to its case. -/
theorem casedName_eqIgnoreCase (c : NameCase) (name : String) :
    Text.eqIgnoreCase (casedName c name) name := by
  have hknown : ∀ n ∈ knownFunctions, Text.asciiLower (Text.asciiUpper n) = Text.asciiLower n := by
    decide +kernel
  unfold casedName knownName?
  cases hfind : knownFunctions.find? (Text.eqIgnoreCase · name) with
  | none => simp [Text.eqIgnoreCase]
  | some n =>
    have hname : Text.eqIgnoreCase n name = true := by simpa using List.find?_some hfind
    cases c with
    | lower => exact hname
    | upper =>
      simp only [Text.eqIgnoreCase, beq_iff_eq] at hname ⊢
      exact (hknown n (List.mem_of_find?_eq_some hfind)).trans hname

/-- Text that the layout writes: a fixed text or the white space of a line. -/
def Piece.IsFixed (s : Style) (p : Piece) : Prop :=
  (∃ m ∈ marks, p = .mark m) ∨ ∀ c ∈ (p.text s).toList, c ∈ [' ', '\t', '\n']

theorem indentBy_blank (s : Style) (d : Nat) : ∀ c ∈ (s.indentBy d).toList, c ∈ [' ', '\t', '\n'] := by
  have hunit : ∀ c ∈ s.indent.text.toList, c ∈ [' ', '\t', '\n'] := by
    cases s.indent <;> decide
  unfold Style.indentBy
  induction d with
  | zero => simp [Text.replicate]
  | succ d ih =>
    simp only [Text.replicate, String.toList_append, List.forall_mem_append]
    exact ⟨hunit, ih⟩

theorem Laid.fixed {S : String → Prop} {a b : Edge} (h : Laid s S a b ps) :
    ∀ p ∈ ps, p ≠ .mark "" → p.leaf?.isSome ∨ p.IsFixed s := by
  induction h with
  | nil | loose => exact List.forall_mem_nil _
  | mark hm _ ih =>
    exact List.forall_mem_cons.2 ⟨fun _ => .inr (.inl ⟨_, List.mem_of_mem_erase hm, rfl⟩), ih⟩
  | star _ ih => exact List.forall_mem_cons.2 ⟨fun _ => .inr (.inl ⟨"*", by decide, rfl⟩), ih⟩
  | empty _ ih => exact List.forall_mem_cons.2 ⟨fun hne => absurd rfl hne, ih⟩
  | lineBreak _ ih =>
    exact List.forall_mem_cons.2 ⟨fun _ => .inr (.inr (by simp [Piece.text])), ih⟩
  | indent d _ ih =>
    exact List.forall_mem_cons.2 ⟨fun _ => .inr (.inr (indentBy_blank s d)), ih⟩
  | leaf t _ ih => exact List.forall_mem_cons.2 ⟨fun _ => .inl rfl, ih⟩
  | sign _ _ _ _ iharg ih =>
    exact List.forall_mem_cons.2 ⟨fun _ => .inl rfl, List.forall_mem_append.2 ⟨iharg, ih⟩⟩

/-- Pieces without those that are empty. -/
def inked (ps : List Piece) : List Piece :=
  ps.filter (· ≠ .mark "")

theorem textOf_inked (s : Style) (ps : List Piece) : Piece.textOf s (inked ps) = Piece.textOf s ps := by
  induction ps with
  | nil => rfl
  | cons p ps ih =>
    by_cases hp : p = .mark ""
    · subst hp
      simpa [inked, Piece.text] using ih
    · simpa [inked, hp] using ih

theorem leafTexts_inked (ps : List Piece) : leafTexts (inked ps) = leafTexts ps := by
  induction ps with
  | nil => rfl
  | cons p ps ih =>
    by_cases hp : p = .mark ""
    · subst hp
      exact ih
    · have hcons (qs : List Piece) : leafTexts (p :: qs) = p.leaf?.toList ++ leafTexts qs := by
        cases p <;> rfl
      rw [inked, List.filter_cons_of_pos (by simpa using hp), hcons, hcons]
      exact congrArg (p.leaf?.toList ++ ·) ih

/-- The text of a statement consists of the texts of its tree, in the order of its clauses, and of text
that the layout writes. -/
theorem render_splits (s : Style) (t : Statement) (h : ∀ n ∈ t.nodes, n.IsPlain) :
    ∃ ps, Piece.textOf s ps = t.render s ∧ leafTexts ps = t.leaves.map (Leaf.written s) ∧
      ∀ p ∈ ps, p.leaf?.isSome ∨ p.IsFixed s := by
  have hlaid : Laid s (fun _ => True) .fenced .bare (t.pieces s) := by
    refine statement_laid s t fun n _ => ?_
    unfold Node.Prefixed
    split <;> trivial
  refine ⟨inked (t.pieces s), textOf_inked s _, ?_, ?_⟩
  · rw [leafTexts_inked, leafTexts_statement s t h]
  · intro p hp
    obtain ⟨hmem, hne⟩ := List.mem_filter.1 hp
    exact hlaid.fixed p hmem (by simpa using hne)

/-- `select Count(*) from t where not a <> $1`. -/
theorem render_splits_count :
    let x : Select :=
      { distinct := none, targets := [⟨.call ⟨["Count"], [], false, true, [], [], none, none⟩, none⟩],
        source := [.table ⟨none, "t", none⟩],
        condition := some (.logic .not [.operation .none "<>" (.column ["a"] false) (.param 1) none]),
        groupBy := [], having := none }
    let t : Statement := .select ⟨none, .select x, [], none, none, []⟩
    (∀ n ∈ t.nodes, n.IsPlain) ∧
      ∃ ps, Piece.textOf {} ps = t.render {} ∧ leafTexts ps = ["count", "t", "a", "!=", "$1"] ∧
        ∀ p ∈ ps, p.leaf?.isSome ∨ p.IsFixed {} := by
  intro x t
  have hplain : ∀ n ∈ t.nodes, n.IsPlain := by
    simp [t, x, Statement.nodes, Query.nodes, withNodes, Body.nodes, Select.nodes, distinctNodes,
      targetNodes, fromNodes, FromItem.nodes, optionNodes, exprNodes, sortNodes, Expr.nodes, Call.nodes,
      argNodes, windowNodes, Node.IsPlain]
  have hleaves : t.leaves.map (Leaf.written {}) = ["count", "t", "a", "!=", "$1"] := by
    decide
  exact ⟨hplain, hleaves ▸ render_splits {} t hplain⟩

end SqlLayout.Layout
