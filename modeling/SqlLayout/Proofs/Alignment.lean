import SqlLayout.Proofs.Groups
import SqlLayout.Proofs.Indentation
import SqlLayout.Proofs.QueryClauses

/-!
The alignment of parentheses. A group closes on a line at the depth for which it is laid out. It opens on
a line of that depth unless something before it has gone on to a deeper line: the conditions of a chain
after the first, a join, or the items of `ORDER BY` after the first, which stand one level deeper than
they are laid out for.
-/

namespace SqlLayout.Layout

open Piece (newline sepBy commas leaves)

/-! ### The course of the lines through a tree -/

/-- The items of `ORDER BY`. Those after the first stand one level deeper than they are laid out for. -/
def orderByLinesUp (d : Nat) : List Course → Bool
  | [] => true
  | f :: fs => (f d).isSome && onLines (d + 1) fs

mutual

/-- The course of the lines through an expression that is laid out at the given depth. -/
def Expr.course (s : Style) (depth : Nat) (isOperand : Bool) : Expr → Course
  | .call c => c.course s depth
  | .operation _ _ l r escape =>
    (l.course s depth false >=> r.course s depth false) >=> optionCourse s depth escape
  | .logic .not args => firstCourse s depth args
  | .logic _ args =>
    if isOperand then group depth (chainCourse s (depth + 1) args (depth + 1)).isSome
    else chainCourse s depth args
  | .nullTest e _ => e.course s depth false
  | .truthTest e _ => e.course s depth false
  | .cast e _ _ => e.course s depth false
  | .caseOf arg whens default =>
    (optionCourse s depth arg >=> whenCourse s depth whens) >=> optionCourse s depth default
  | .coalesce args => inTurn (exprCourses s depth args)
  | .link _ test _ _ q => optionCourse s depth test >=> group depth (q.linesUp s (depth + 1))
  | .inList e list _ => e.course s depth false >=> inTurn (exprCourses s depth list)
  | .between e low high _ =>
    (e.course s depth false >=> low.course s depth false) >=> high.course s depth false
  | .array es => inTurn (exprCourses s depth es)
  | .unary _ e => e.course s depth false
  | .nested e => e.course s depth false
  | _ => some

def firstCourse (s : Style) (depth : Nat) : List Expr → Course
  | [] => some
  | e :: _ => e.course s depth true

def chainCourse (s : Style) (depth : Nat) : List Expr → Course
  | [] => some
  | e :: r => e.course s depth true >=> chainRestCourse s depth r

/-- Each condition after the first starts a line. -/
def chainRestCourse (s : Style) (depth : Nat) : List Expr → Course
  | [] => some
  | e :: r => (fun _ => e.course s (depth + 1) true (depth + 1)) >=> chainRestCourse s depth r

def exprCourses (s : Style) (depth : Nat) : List Expr → List Course
  | [] => []
  | e :: r => e.course s depth false :: exprCourses s depth r

def optionCourse (s : Style) (depth : Nat) : Option Expr → Course
  | none => some
  | some e => e.course s depth false

def whenCourse (s : Style) (depth : Nat) : List When → Course
  | [] => some
  | ⟨c, r⟩ :: ws => (c.course s depth false >=> r.course s depth false) >=> whenCourse s depth ws

def Call.course (s : Style) (depth : Nat) : Call → Course
  | ⟨_, args, _, star, orderBy, withinGroup, filter, window⟩ =>
    let parts :=
      (if star then some else inTurn (argCourses s depth args)) >=> inTurn (sortCourses s depth orderBy)
    ((parts >=> inTurn (sortCourses s depth withinGroup)) >=> optionCourse s depth filter) >=>
      windowCourse s depth window

def argCourses (s : Style) (depth : Nat) : List Arg → List Course
  | [] => []
  | .positional e :: r => e.course s depth false :: argCourses s depth r
  | .named _ _ e :: r => e.course s depth false :: argCourses s depth r

def windowCourse (s : Style) (depth : Nat) : Option Window → Course
  | none => some
  | some ⟨partitionBy, orderBy, _⟩ =>
    inTurn (exprCourses s depth partitionBy) >=> inTurn (sortCourses s depth orderBy)

def sortCourses (s : Style) (depth : Nat) : List SortItem → List Course
  | [] => []
  | ⟨e, _, _⟩ :: r => e.course s depth false :: sortCourses s depth r

/-- Whether the groups of a query close as they open, where its first line is at the given depth. -/
def Query.linesUp (s : Style) (depth : Nat) : Query → Bool
  | ⟨withClause, body, orderBy, limit, offset, _⟩ =>
    if body.isBlank then true
    else
      withLinesUp s depth withClause && body.linesUp s depth &&
        orderByLinesUp depth (sortCourses s depth orderBy) && (optionCourse s depth limit depth).isSome &&
        (optionCourse s depth offset depth).isSome

def withLinesUp (s : Style) (depth : Nat) : Option With → Bool
  | none => true
  | some ⟨_, ctes⟩ => (inTurn (cteCourses s depth ctes) depth).isSome

def cteCourses (s : Style) (depth : Nat) : List Cte → List Course
  | [] => []
  | ⟨_, _, q⟩ :: r => group depth (q.linesUp s (depth + 1)) :: cteCourses s depth r

def Body.linesUp (s : Style) (depth : Nat) : Body → Bool
  | .select x => x.linesUp s depth
  | .setOp _ _ l r => l.linesUp s depth && r.linesUp s depth
  | .values rows => (inTurn (rowCourses s depth rows) depth).isSome
  | .query q => (group depth (q.linesUp s (depth + 1)) depth).isSome

def rowCourses (s : Style) (depth : Nat) : List (List Expr) → List Course
  | [] => []
  | es :: r =>
    group depth (onLines (depth + 1) (exprCourses s (depth + 1) es)) :: rowCourses s depth r

def Select.linesUp (s : Style) (depth : Nat) : Select → Bool
  | ⟨distinct, targets, source, condition, groupBy, having⟩ =>
    if targets.isEmpty then true
    else
      (distinctCourse s depth distinct depth).isSome &&
        onLines (depth + 1) (targetCourses s (depth + 1) targets) &&
        (inTurn (fromCourses s depth source) depth).isSome &&
        (optionCourse s depth condition depth).isSome &&
        (inTurn (exprCourses s depth groupBy) depth).isSome && (optionCourse s depth having depth).isSome

def distinctCourse (s : Style) (depth : Nat) : Option Distinct → Course
  | some (.on es) => inTurn (exprCourses s depth es)
  | _ => some

def targetCourses (s : Style) (depth : Nat) : List Target → List Course
  | [] => []
  | ⟨e, _⟩ :: r => e.course s depth false :: targetCourses s depth r

def fromCourses (s : Style) (depth : Nat) : List FromItem → List Course
  | [] => []
  | f :: r => f.course s depth :: fromCourses s depth r

/-- A join starts a line. -/
def FromItem.course (s : Style) (depth : Nat) : FromItem → Course
  | .function _ call _ => call.course s depth
  | .subquery _ q _ => group depth (q.linesUp s (depth + 1))
  | .join _ _ l r condition =>
    let joinDepth := if s.joinIndented then depth + 1 else depth
    l.course s depth >=> fun _ => (r.course s joinDepth >=> condition.course s joinDepth) joinDepth
  | _ => some

def JoinCondition.course (s : Style) (depth : Nat) : JoinCondition → Course
  | .on e =>
    if s.onOwnLine then fun _ => e.course s (depth + 1) false (depth + 1)
    else e.course s depth false
  | _ => some

end

def assignmentsLineUp (s : Style) (as : List Assignment) : Bool :=
  onLines 1 (exprCourses s 1 (as.map Assignment.value))

def whereLinesUp (s : Style) (condition : Option Expr) : Bool :=
  (optionCourse s 0 condition 0).isSome

def returningLinesUp (s : Style) (targets : List Target) : Bool :=
  (inTurn (targetCourses s 0 targets) 0).isSome

def OnConflict.linesUp (s : Style) : OnConflict → Bool
  | ⟨_, .nothing⟩ => true
  | ⟨_, .update as condition⟩ => assignmentsLineUp s as && whereLinesUp s condition

def InsertSource.linesUp (s : Style) : InsertSource → Bool
  | .values rows => (inTurn (rowCourses s 0 rows) 0).isSome
  | .query q => q.linesUp s 0
  | .defaultValues => true

/-- Whether the groups of a statement close as they open. -/
def Statement.linesUp (s : Style) : Statement → Bool
  | .select q => q.linesUp s 0
  | .insert i =>
    i.source.linesUp s && i.onConflict.elim true (OnConflict.linesUp s) &&
      returningLinesUp s i.returning
  | .update u =>
    assignmentsLineUp s u.assignments && whereLinesUp s u.condition && returningLinesUp s u.returning
  | .delete d => whereLinesUp s d.condition && returningLinesUp s d.returning

/-! ### Parts without expressions -/

variable {s : Style} {a b : Bool} {d : Nat} {f : Course} {fs : List Course} {m : String}
  {ps : List Piece} {pss : List (List Piece)}

theorem word_tracks (hm : IsPlainMark m) (present : Bool) :
    Tracks some a false (if present then [.mark m] else []) := by
  cases present with
  | false => exact .nil
  | true => exact (Tracks.mark hm .nil).loosen

theorem notMark_tracks (negated : Bool) : Tracks some a false (notMark negated) :=
  word_tracks (by decide) negated

theorem leaves_tracks {separator : String} (h : IsPlainMark separator) (t : String) (ts : List String) :
    Tracks some a true (leaves separator (t :: ts)) := by
  unfold leaves
  induction ts generalizing a t with
  | nil => exact .leaf t .nil
  | cons u r ih => exact .leaf t (.mark h (ih u))

theorem names_tracks (ts : List String) : Tracks some a false (leaves ", " ts) := by
  cases ts with
  | nil => exact .nil
  | cons t r => exact (leaves_tracks (by decide) t r).loosen

theorem columnPieces_tracks (fields : List String) (wildcard : Bool) :
    Tracks some a true (columnPieces fields wildcard) := by
  cases fields with
  | nil => exact .mark (by decide) .nil
  | cons w ws =>
    have hfields : Tracks some a true (leaves "." (w :: ws)) := leaves_tracks (by decide) w ws
    exact hfields.append (word_tracks (by decide) wildcard)

theorem functionName_tracks (name : List String) : Tracks some a false (functionName s name) := by
  unfold functionName
  split
  · exact .nil
  · cases name.dropLast with
    | nil => exact (leaves_tracks (by decide) _ _).loosen
    | cons w ws => exact (leaves_tracks (by decide) w _).loosen

theorem aliasPieces_tracks (name : Option String) : Tracks some a false (aliasPieces name) := by
  cases name with
  | none => exact .nil
  | some t => exact (Tracks.mark (by decide) (.leaf t .nil)).loosen

theorem targetName_tracks (name : Option String) :
    Tracks some a false
      (match name with
        | some n => [.mark " AS ", .leaf n]
        | none => []) := by
  cases name with
  | none => exact .nil
  | some n => exact (Tracks.mark (by decide) (.leaf n .nil)).loosen

theorem tableName_tracks (t : TableName) : Tracks some a true t.pieces := by
  have hname : Tracks some true true ([Piece.leaf t.name] ++ aliasPieces t.aliasName) :=
    .leaf t.name (aliasPieces_tracks t.aliasName)
  unfold TableName.pieces
  cases t.schema with
  | none => exact .leaf t.name (aliasPieces_tracks t.aliasName)
  | some schema => exact .leaf schema (.mark (by decide) hname)

theorem waiting_tracks (waiting : Option Waiting) :
    Tracks some a false
      (match waiting with
        | some w => [.mark (" " ++ w.text)]
        | none => []) := by
  cases waiting with
  | none => exact .nil
  | some w => exact (Tracks.mark (by cases w <;> decide) .nil).loosen

theorem locking_tracks (l : Locking) : Tracks some a true l.pieces := by
  obtain ⟨strength, of, waiting⟩ := l
  have hstrength : IsPlainMark strength.text := by cases strength <;> decide
  cases of with
  | none => exact .mark hstrength (waiting_tracks waiting)
  | some t => exact .mark hstrength (.mark (by decide) (.leaf t (waiting_tracks waiting)))

theorem lockings_fill (ls : List Locking) (d : Nat) :
    Fills d false true (ls.map fun l => newline d ++ l.pieces).flatten := by
  induction ls with
  | nil => exact .nil
  | cons l r ih =>
    have hline : Tracks some false true l.pieces := locking_tracks l
    exact (Fills.clause d hline).append ih

theorem brackets_tracks (n : Nat) : Tracks some a false (List.replicate n (.mark "[]")) := by
  induction n generalizing a with
  | zero => exact .nil
  | succ n ih => exact (Tracks.mark (by decide) ih).loosen

theorem nulls_tracks (x : Option Nulls) :
    Tracks some a false
      (match x with
        | some n => [.mark n.text]
        | none => []) := by
  cases x with
  | none => exact .nil
  | some n => exact (Tracks.mark (by cases n <;> decide) .nil).loosen

theorem sortClause_tracks {lead closing : String} (hlead : IsPlainMark lead)
    (hclosing : opens closing = false) (h : TracksEach fs pss) :
    Tracks (inTurn fs) a false (sortClause lead [.mark ", "] pss closing) := by
  have hnil : Tracks some a false [] := .nil
  unfold sortClause
  cases h with
  | nil => exact .nil
  | cons hps hrest =>
    have hopen : TracksOpen some a ([] ++ [Piece.mark lead]) := .mark hlead.2 hnil
    exact ((hopen.append (Tracks.commas (.cons hps hrest))).close hclosing).loosen

/-- A clause with items on its line, which is left out when it has none. -/
theorem clause_fills (hm : IsPlainMark m) (h : TracksEach fs pss) :
    Fills d false (inTurn fs d).isSome
      (if pss.isEmpty then [] else newline d ++ [Piece.mark m] ++ commas pss) := by
  cases h with
  | nil => exact .nil
  | cons hps hrest =>
    rw [List.append_assoc]
    exact .clause d (Tracks.mark hm (Tracks.commas (.cons hps hrest)).tighten : Tracks _ false true _)

theorem sepBy_cons (separator ps : List Piece) (pss : List (List Piece)) :
    sepBy separator (ps :: pss) = ps ++ (pss.map (separator ++ ·)).flatten := by
  induction pss generalizing ps with
  | nil => simp [sepBy]
  | cons qs r ih => simp [sepBy, ih]

theorem orderBy_fills (h : TracksEach fs pss) :
    Fills d false (orderByLinesUp d fs)
      (if pss.isEmpty then []
        else newline d ++ [Piece.mark "ORDER BY "] ++ sepBy (.mark "," :: newline (d + 1)) pss) := by
  cases h with
  | nil => exact .nil
  | @cons f ps fs pss hps hrest =>
    have hfirst : Fills d false (f d).isSome (newline d ++ ([Piece.mark "ORDER BY "] ++ ps)) :=
      .clause d (Tracks.mark (by decide) hps.tighten : Tracks f false true _)
    have hothers : Fills d false (onLines (d + 1) fs)
        ((pss.map ((.mark "," :: newline (d + 1)) ++ ·)).flatten) := by
      induction hrest with
      | nil => exact .nil
      | @cons g qs gs r hqs _ ih =>
        have hcomma : Fills d false true [.mark ","] :=
          .text (Tracks.mark (by decide) .nil : Tracks some false true _)
        have hline : Fills d false (g (d + 1)).isSome (newline (d + 1) ++ qs) := .clause (d + 1) hqs
        simpa [onLines] using (hcomma.append hline).append ih
    rw [sepBy_cons]
    simpa [orderByLinesUp] using hfirst.append hothers

theorem group_append (ts ps : List Piece) (d : Nat) (m m' : String) :
    ts ++ [Piece.mark m, .lineBreak] ++ ps ++ newline d ++ [Piece.mark m'] =
      ts ++ ([Piece.mark m] ++ (Piece.lineBreak :: ps) ++ newline d ++ [Piece.mark m']) := by
  simp

/-- A query in parentheses. -/
theorem lines_group {ok : Bool} (hm : opens m ∧ closes m = false) (h : Fills (d + 1) true ok ps) :
    Tracks (group d ok) false true
      ([Piece.mark m] ++ (Piece.lineBreak :: ps) ++ newline d ++ [Piece.mark ")"]) := by
  have hlines : Fills d false ok (.lineBreak :: ps) := .lineBreak h
  exact .group hm (by decide) hlines rfl

/-- A chain of conditions, which stands in parentheses where it is an operand. -/
theorem chain_group {f : Nat → Course} {c : Connective} {args : List Expr} (isOperand : Bool)
    (h : ∀ d, Tracks (f d) false false (chainPieces s d c args)) :
    Tracks (if isOperand then group d (f (d + 1) (d + 1)).isSome else f d) false isOperand
      (if isOperand then
        [Piece.mark "(", .lineBreak, .indent (d + 1)] ++ chainPieces s (d + 1) c args ++ newline d ++
          [Piece.mark ")"]
      else chainPieces s d c args) := by
  cases isOperand with
  | false => exact h d
  | true => exact lines_group (by decide) (.line (h (d + 1)))

/-! ### Expressions and queries -/

mutual

theorem expr_tracks : (e : Expr) → (d : Nat) → (isOperand : Bool) →
    Tracks (e.course s d isOperand) false isOperand (e.pieces s d isOperand)
  | .column fields wildcard, _, _ => (columnPieces_tracks fields wildcard).loosen
  | .keyword w, _, _ => (Tracks.leaf (Text.upper w) .nil).loosen
  | .const c, _, _ => (Tracks.leaf c.text .nil).loosen
  | .param n, _, _ => (Tracks.leaf ("$" ++ toString n) .nil).loosen
  | .call c, d, _ => (call_tracks c d).loosen
  | .operation q op l r escape, d, _ => by
    have hl := expr_tracks l d false
    have hr := expr_tracks r d false
    have hopening : closes q.opening = false := by cases q <;> decide
    have hclosing : opens q.closing = false := by cases q <;> decide
    have hop : Tracks some false true [.mark " ", .leaf (operatorText op)] :=
      .mark (by decide) (.leaf _ .nil)
    have hlead : Tracks some false true [.mark " ESCAPE "] := .mark (by decide) .nil
    have hopen := TracksOpen.mark hopening (hl.after hop)
    rw [List.append_assoc] at hopen
    exact (((hopen.append hr).close hclosing).append (option_tracks escape d hlead)).loosen
  | .logic .not args, d, _ => by
    have hnot : Tracks some false true [.mark "NOT "] := .mark (by decide) .nil
    exact (hnot.before (first_tracks args d)).loosen
  | .logic .and args, _, isOperand => chain_group isOperand fun d => chain_tracks .and args d
  | .logic .or args, _, isOperand => chain_group isOperand fun d => chain_tracks .or args d
  | .nullTest e t, d, _ => by
    have htest : Tracks some false true [.mark (" " ++ t.text)] := .mark (by cases t <;> decide) .nil
    exact ((expr_tracks e d false).after htest).loosen
  | .truthTest e t, d, _ => by
    have htest : Tracks some false true [.mark (" " ++ t.text)] := .mark (by cases t <;> decide) .nil
    exact ((expr_tracks e d false).after htest).loosen
  | .cast e typeName bounds, d, _ => by
    have hcast : Tracks some false true [.mark "::", .leaf typeName] :=
      .mark (by decide) (.leaf typeName .nil)
    exact (((expr_tracks e d false).after hcast).after (brackets_tracks bounds)).loosen
  | .caseOf arg whens default, d, _ => by
    have hcase : Tracks some false true [.mark "CASE"] := .mark (by decide) .nil
    have hend : Tracks some false true [.mark " END"] := .mark (by decide) .nil
    have hblank : Tracks some false true [.mark " "] := .mark (by decide) .nil
    have helse : Tracks some false true [.mark " ELSE "] := .mark (by decide) .nil
    have hwhens := (hcase.before (option_tracks arg d hblank)).append (when_tracks whens d)
    exact ((hwhens.append (option_tracks default d helse)).after hend).loosen
  | .coalesce args, d, _ => by
    have hopen : TracksOpen some false ([] ++ [Piece.mark "COALESCE("]) := .mark (by decide) .nil
    exact ((hopen.append (.commas (exprs_tracks args d))).close (by decide)).loosen
  | .link kind test op negated q, d, _ => by
    have hkind : opens kind.opening ∧ closes kind.opening = false := by cases kind <;> decide
    have htest := (test_tracks op test d).after (notMark_tracks negated)
    rw [Expr.pieces, group_append]
    exact (htest.append (lines_group hkind (query_fills q (d + 1)))).loosen
  | .inList e list negated, d, _ => by
    have hblank : Tracks some false true [.mark " "] := .mark (by decide) .nil
    have htest := ((expr_tracks e d false).after hblank).after (notMark_tracks negated)
    have hopen : TracksOpen (e.course s d false) false _ := .mark (m := "IN (") (by decide) htest
    exact ((hopen.append (.commas (exprs_tracks list d))).close (by decide)).loosen
  | .between e low high negated, d, _ => by
    have hblank : Tracks some false true [.mark " "] := .mark (by decide) .nil
    have hbetween : Tracks some false true [.mark "BETWEEN "] := .mark (by decide) .nil
    have hand : Tracks some false true [.mark " AND "] := .mark (by decide) .nil
    have htest := (((expr_tracks e d false).after hblank).after (notMark_tracks negated)).after hbetween
    exact (((htest.append (expr_tracks low d false)).after hand).append (expr_tracks high d false)).loosen
  | .array es, d, _ => by
    have hopen : Tracks some false true [.mark "ARRAY["] := .mark (by decide) .nil
    have hclose : Tracks some false true [.mark "]"] := .mark (by decide) .nil
    exact ((hopen.before (.commas (exprs_tracks es d))).after hclose).loosen
  | .unary op e, d, _ => by
    have hop : Tracks some false true [.leaf op] := .leaf op .nil
    have hsign : Tracks some false false
        (if startsWithSign s (e.pieces s d false) then [.mark " "] else []) :=
      word_tracks (by decide) _
    exact ((hop.after hsign).before (expr_tracks e d false)).loosen
  | .nested e, d, _ => by
    have hopen : TracksOpen some false ([] ++ [Piece.mark "("]) := .mark (by decide) .nil
    exact ((hopen.append (expr_tracks e d false)).close (by decide)).loosen
  | .verbatim t, _, _ => (Tracks.leaf t .nil).loosen

theorem first_tracks : (args : List Expr) → (d : Nat) →
    Tracks (firstCourse s d args) false false (firstOperand s d args)
  | [], _ => .nil
  | e :: _, d => (expr_tracks e d true).loosen

theorem chain_tracks (c : Connective) : (args : List Expr) → (d : Nat) →
    Tracks (chainCourse s d args) false false (chainPieces s d c args)
  | [], _ => .nil
  | e :: r, d => ((expr_tracks e d true).next (chainRest_tracks c r d) fun _ => .inr rfl).loosen

theorem chainRest_tracks (c : Connective) : (args : List Expr) → (d : Nat) →
    Tracks (chainRestCourse s d args) true false (chainRest s d c args)
  | [], _ => .nil
  | e :: r, d => by
    have hc : IsPlainMark (c.text ++ " ") := by cases c <;> decide
    have hmark : Tracks some false true [.mark (c.text ++ " ")] := .mark hc .nil
    rw [chainRest, List.append_assoc (newline (d + 1))]
    exact ((Tracks.newline (d + 1) (hmark.before (expr_tracks e (d + 1) true))).append
      (chainRest_tracks c r d)).loosen

theorem exprs_tracks : (es : List Expr) → (d : Nat) → TracksEach (exprCourses s d es) (exprPieces s d es)
  | [], _ => .nil
  | e :: r, d => .cons (expr_tracks e d false) (exprs_tracks r d)

theorem option_tracks {lead : List Piece} : (e : Option Expr) → (d : Nat) →
    Tracks some false true lead →
    Tracks (optionCourse s d e) false false (optionPieces s d lead e)
  | none, _, _ => .nil
  | some e, d, hlead => (hlead.before (expr_tracks e d false)).loosen

theorem test_tracks (op : Option String) : (test : Option Expr) → (d : Nat) →
    Tracks (optionCourse s d test) false false (testPieces s d op test)
  | none, _ => .nil
  | some e, d => by
    have hblank : Tracks some false true [.mark " "] := .mark (by decide) .nil
    have hop : Tracks some false false
        (match op with
          | some o => [.leaf o, .mark " "]
          | none => []) := by
      cases op with
      | none => exact .nil
      | some o => exact (Tracks.leaf o (.mark (by decide) .nil)).loosen
    exact (((expr_tracks e d false).after hblank).after hop).loosen

theorem when_tracks : (ws : List When) → (d : Nat) →
    Tracks (whenCourse s d ws) false false (whenPieces s d ws)
  | [], _ => .nil
  | ⟨c, r⟩ :: ws, d => by
    have hwhen : Tracks some false true [.mark " WHEN "] := .mark (by decide) .nil
    have hthen : Tracks some false true [.mark " THEN "] := .mark (by decide) .nil
    have hcondition := (hwhen.before (expr_tracks c d false)).after hthen
    exact ((hcondition.append (expr_tracks r d false)).append (when_tracks ws d)).loosen

theorem call_tracks : (c : Call) → (d : Nat) → Tracks (c.course s d) false true (c.pieces s d)
  | ⟨name, args, distinct, star, orderBy, withinGroup, filter, window⟩, d => by
    have hopen : TracksOpen some false (functionName s name ++ [Piece.mark "("]) :=
      .mark (by decide) (functionName_tracks name)
    have hargs : Tracks (if star then some else inTurn (argCourses s d args)) false false
        (if star then [.mark "*"] else commas (argPieces s d args)) := by
      cases star with
      | true => exact (Tracks.mark (by decide) .nil).loosen
      | false => exact .commas (args_tracks args d)
    have horder : Tracks (inTurn (sortCourses s d orderBy)) false false
        (sortClause " ORDER BY " [.mark ", "] (sortPieces s d orderBy) "") :=
      sortClause_tracks (by decide) (by decide) (sort_tracks orderBy d)
    have hwithin : Tracks (inTurn (sortCourses s d withinGroup)) false false
        (sortClause " WITHIN GROUP (ORDER BY " [.mark ", "] (sortPieces s d withinGroup) ")") :=
      sortClause_tracks (by decide) (by decide) (sort_tracks withinGroup d)
    have hdistinct : Tracks some false false (if distinct then [.mark "DISTINCT "] else []) :=
      word_tracks (by decide) distinct
    have hparts := (hopen.after hdistinct).append hargs
    have hcall := (hparts.append horder).close (m := ")") (by decide)
    exact ((hcall.append hwithin).append (filter_tracks filter d)).append (window_tracks window d)

theorem filter_tracks : (filter : Option Expr) → (d : Nat) →
    Tracks (optionCourse s d filter) false false (filterPieces s d filter)
  | none, _ => .nil
  | some e, d => by
    have hopen : TracksOpen some false ([] ++ [Piece.mark " FILTER (WHERE "]) := .mark (by decide) .nil
    exact ((hopen.append (expr_tracks e d false)).close (by decide)).loosen

theorem args_tracks : (args : List Arg) → (d : Nat) → TracksEach (argCourses s d args) (argPieces s d args)
  | [], _ => .nil
  | .positional e :: r, d => .cons (expr_tracks e d false) (args_tracks r d)
  | .named name sign e :: r, d =>
    have hname : Tracks some false true [.leaf name, .mark " ", .leaf sign, .mark " "] :=
      .leaf name (.mark (by decide) (.leaf sign (.mark (by decide) .nil)))
    .cons (hname.before (expr_tracks e d false)).loosen (args_tracks r d)

theorem sort_tracks : (items : List SortItem) → (d : Nat) →
    TracksEach (sortCourses s d items) (sortPieces s d items)
  | [], _ => .nil
  | ⟨e, direction, nulls⟩ :: r, d =>
    have hdirection : Tracks some false true [.mark direction.text] :=
      .mark (by cases direction <;> decide) .nil
    .cons (((expr_tracks e d false).after hdirection).after (nulls_tracks nulls)).loosen (sort_tracks r d)

theorem window_tracks : (w : Option Window) → (d : Nat) →
    Tracks (windowCourse s d w) false false (windowPieces s d w)
  | none, _ => .nil
  | some ⟨partitionBy, orderBy, frame⟩, d => by
    obtain ⟨fs, hfs, hpartition⟩ :=
      Tracks.part (m := "PARTITION BY ") (by decide) (exprs_tracks partitionBy d)
    obtain ⟨gs, hgs, horder⟩ := Tracks.part (m := "ORDER BY ") (by decide) (sort_tracks orderBy d)
    obtain ⟨hs, hhs, hframe⟩ : ∃ hs, inTurn hs = some ∧ TracksEach hs (match frame with
        | some f => [[Piece.leaf f]]
        | none => []) := by
      cases frame with
      | none => exact ⟨[], rfl, .nil⟩
      | some f => exact ⟨[some], rfl, .cons (Tracks.leaf f .nil).loosen .nil⟩
    have hblank : Tracks some false true [.mark " "] := .mark (by decide) .nil
    have hparts := Tracks.sepBy hblank (List.rel_append (List.rel_append hpartition horder) hframe)
    rw [inTurn_append, inTurn_append, hfs, hgs, hhs, kleisli_some] at hparts
    have hopen : TracksOpen some false ([] ++ [Piece.mark " OVER("]) := .mark (by decide) .nil
    exact ((hopen.append hparts).close (by decide)).loosen

theorem query_fills : (q : Query) → (d : Nat) → Fills d true (q.linesUp s d) (q.pieces s d)
  | ⟨withClause, body, orderBy, limit, offset, locking⟩, d => by
    rw [Query.pieces, body_isEmpty, Query.linesUp]
    cases body.isBlank with
    | true => exact .nil
    | false =>
      have hlimit : Fills d false (optionCourse s d limit d).isSome
          (optionPieces s d (newline d ++ [Piece.mark "LIMIT "]) limit) :=
        optionClause_fills limit d (by decide)
      have hoffset : Fills d false (optionCourse s d offset d).isSome
          (optionPieces s d (newline d ++ [Piece.mark "OFFSET "]) offset) :=
        optionClause_fills offset d (by decide)
      have hbody := with_fills withClause d (body_fills body d)
      have horder := hbody.append (orderBy_fills (d := d) (sort_tracks orderBy d))
      exact ((horder.append hlimit).append hoffset).after (lockings_fill locking d)

/-- The line after the named queries starts what comes next. -/
theorem with_fills {closed : Bool} {ps : List Piece} : (w : Option With) → (d : Nat) →
    Fills d true closed ps → Fills d true (withLinesUp s d w && closed) (withPieces s d w ++ ps)
  | none, _, h => h
  | some ⟨isRecursive, ctes⟩, d, h => by
    have hlead : Tracks some false true [.mark "WITH "] := .mark (by decide) .nil
    have hrecursive : Tracks some false false (if isRecursive then [.mark "RECURSIVE "] else []) :=
      word_tracks (by decide) isRecursive
    have hctes := (hlead.after hrecursive).before (.commas (ctes_tracks ctes d))
    have hwith := (Fills.line (d := d) hctes).append (j := d) (.lineBreak h)
    simpa [withPieces, With.pieces, withLinesUp] using hwith

theorem ctes_tracks : (ws : List Cte) → (d : Nat) → TracksEach (cteCourses s d ws) (ctePieces s d ws)
  | [], _ => .nil
  | ⟨name, materialized, q⟩ :: r, d => by
    have hname : Tracks some false true [.leaf name, .mark " AS "] := .leaf name (.mark (by decide) .nil)
    have hmaterialized : Tracks some false false
        (match materialized with
          | some m => [.leaf m, .mark " "]
          | none => []) := by
      cases materialized with
      | none => exact .nil
      | some m => exact (Tracks.leaf m (.mark (by decide) .nil)).loosen
    have hquery := lines_group (m := "(") (d := d) (by decide) (query_fills q (d + 1))
    unfold ctePieces
    rw [group_append]
    exact .cons ((hname.after hmaterialized).before hquery).loosen (ctes_tracks r d)

theorem body_fills : (b : Body) → (d : Nat) → Fills d true (b.linesUp s d) (b.pieces s d)
  | .select x, d => select_fills x d
  | .setOp op all l r, d => by
    have hop : Tracks some false true [.mark (op.text ++ if all then " ALL" else "")] :=
      .mark (by cases op <;> cases all <;> decide) .nil
    have hline : Fills d false true (newline d ++ [Piece.mark (op.text ++ if all then " ALL" else "")]) :=
      .clause d hop
    have hright : Fills d false (r.linesUp s d) (.lineBreak :: r.pieces s d) :=
      .lineBreak (body_fills r d)
    simpa [Body.pieces, Body.linesUp] using ((body_fills l d).after hline).append hright
  | .values rows, d => by
    have hlead : Tracks some false true [.mark "VALUES "] := .mark (by decide) .nil
    exact .line (hlead.before (.commas (rows_tracks rows d)))
  | .query q, d => by
    have hquery : Tracks (group d (q.linesUp s (d + 1))) false true
        ([Piece.mark "("] ++ (Piece.lineBreak :: q.pieces s (d + 1)) ++ newline d ++ [Piece.mark ")"]) :=
      lines_group (by decide) (query_fills q (d + 1))
    exact .line hquery

theorem rows_tracks : (rows : List (List Expr)) → (d : Nat) →
    TracksEach (rowCourses s d rows) (rowPieces s d rows)
  | [], _ => .nil
  | es :: r, d => by
    have hlines : Fills d false (onLines (d + 1) (exprCourses s (d + 1) es)) _ :=
      .lines (d + 1) (exprs_tracks es (d + 1))
    have hrow : Tracks (group d (onLines (d + 1) (exprCourses s (d + 1) es))) false true
        ([Piece.mark "("] ++ _ ++ newline d ++ [Piece.mark ")"]) :=
      .group (by decide) (by decide) hlines (head?_lines (d + 1) _)
    exact .cons hrow.loosen (rows_tracks r d)

theorem select_fills : (x : Select) → (d : Nat) → Fills d true (x.linesUp s d) (x.pieces s d)
  | ⟨distinct, targets, source, condition, groupBy, having⟩, d => by
    rw [Select.pieces, targetPieces_isEmpty, Select.linesUp]
    cases targets.isEmpty with
    | true => exact .nil
    | false =>
      have hlead : Tracks some false true [.mark "SELECT"] := .mark (by decide) .nil
      have htargets : Fills d false (onLines (d + 1) (targetCourses s (d + 1) targets)) _ :=
        .lines (d + 1) (targets_tracks targets (d + 1))
      have hsource := clause_fills (m := "FROM ") (d := d) (by decide) (from_tracks source d)
      have hwhere : Fills d false (optionCourse s d condition d).isSome
          (optionPieces s d (newline d ++ [Piece.mark "WHERE "]) condition) :=
        optionClause_fills condition d (by decide)
      have hgroup := clause_fills (m := "GROUP BY ") (d := d) (by decide) (exprs_tracks groupBy d)
      have hhaving : Fills d false (optionCourse s d having d).isSome
          (optionPieces s d (newline d ++ [Piece.mark "HAVING "]) having) :=
        optionClause_fills having d (by decide)
      have hselect := Fills.line (d := d) (hlead.before (distinct_tracks distinct d))
      have hitems := ((hselect.append htargets).append hsource).append hwhere
      exact (hitems.append hgroup).append hhaving

theorem distinct_tracks : (x : Option Distinct) → (d : Nat) →
    Tracks (distinctCourse s d x) false false (distinctPieces s d x)
  | none, _ => .nil
  | some .rows, _ => (Tracks.mark (by decide) .nil).loosen
  | some (.on es), d => by
    have hopen : TracksOpen some false ([] ++ [Piece.mark " DISTINCT ON ("]) := .mark (by decide) .nil
    exact ((hopen.append (.commas (exprs_tracks es d))).close (by decide)).loosen

theorem targets_tracks : (ts : List Target) → (d : Nat) →
    TracksEach (targetCourses s d ts) (targetPieces s d ts)
  | [], _ => .nil
  | ⟨e, name⟩ :: r, d =>
    .cons ((expr_tracks e d false).after (targetName_tracks name)) (targets_tracks r d)

theorem from_tracks : (fs : List FromItem) → (d : Nat) →
    TracksEach (fromCourses s d fs) (fromPieces s d fs)
  | [], _ => .nil
  | f :: r, d => .cons (fromItem_tracks f d).loosen (from_tracks r d)

theorem fromItem_tracks : (f : FromItem) → (d : Nat) → Tracks (f.course s d) false true (f.pieces s d)
  | .table t, _ => tableName_tracks t
  | .function isLateral call aliasName, d =>
    ((word_tracks (by decide) isLateral).before (call_tracks call d)).after (aliasPieces_tracks aliasName)
  | .subquery isLateral q aliasName, d => by
    have hlateral : Tracks some false false (if isLateral then [.mark "LATERAL "] else []) :=
      word_tracks (by decide) isLateral
    have hquery := lines_group (m := "(") (d := d) (by decide) (query_fills q (d + 1))
    rw [FromItem.pieces, group_append]
    exact (hlateral.before hquery).after (aliasPieces_tracks aliasName)
  | .join kind natural l r condition, d => by
    have hkind : IsPlainMark (kind.text ++ " ") := by cases kind <;> decide
    have hnatural : Tracks some false false (if natural then [.mark "NATURAL "] else []) :=
      word_tracks (by decide) natural
    have hword : Tracks some false true [.mark (kind.text ++ " ")] := .mark hkind .nil
    have hjoined := fun j => (hnatural.after hword).before
      ((fromItem_tracks r j).next (joinCondition_tracks condition j) fun _ => .inr rfl)
    have hline := fun j => (fromItem_tracks l d).next (.newline j (hjoined j)) fun _ => .inr rfl
    simpa [FromItem.pieces, FromItem.course] using hline (if s.joinIndented then d + 1 else d)
  | .verbatim t, _ => .leaf t .nil

theorem joinCondition_tracks : (c : JoinCondition) → (d : Nat) →
    Tracks (c.course s d) true false (c.pieces s d)
  | .on e, d => by
    rw [JoinCondition.pieces, JoinCondition.course]
    split
    · have hlead : Tracks some false true [.mark "ON "] := .mark (by decide) .nil
      rw [List.append_assoc]
      exact (Tracks.newline (d + 1) (hlead.before (expr_tracks e (d + 1) false))).loosen
    · have hlead : Tracks some false true [.mark " ON "] := .mark (by decide) .nil
      exact (hlead.before (expr_tracks e d false)).tighten.loosen
  | .byColumns cs, _ => by
    have hopen : TracksOpen some true ([] ++ [Piece.mark " USING("]) := .mark (by decide) .nil
    exact ((hopen.after (names_tracks cs)).close (by decide)).loosen
  | .none, _ => .nil

/-- A clause with an expression on its line, which is left out where there is none. -/
theorem optionClause_fills {m : String} : (e : Option Expr) → (d : Nat) → IsPlainMark m →
    Fills d false (optionCourse s d e d).isSome (optionPieces s d (newline d ++ [Piece.mark m]) e)
  | none, _, _ => .nil
  | some e, d, hm => by
    have hlead : Tracks some false true [.mark m] := .mark hm .nil
    rw [optionPieces, List.append_assoc]
    exact .clause d (hlead.before (expr_tracks e d false))

end

/-! ### Statements -/

theorem where_fills (condition : Option Expr) :
    Fills 0 false (whereLinesUp s condition) (wherePieces s condition) :=
  optionClause_fills condition 0 (by decide)

theorem returning_fills (ts : List Target) :
    Fills 0 false (returningLinesUp s ts) (returningPieces s ts) := by
  rw [returningPieces, ← targetPieces_isEmpty s 0]
  exact clause_fills (by decide) (targets_tracks ts 0)

theorem assignments_track : (as : List Assignment) →
    TracksEach (exprCourses s 1 (as.map Assignment.value))
      (as.map fun a => [Piece.leaf a.target, .mark " = "] ++ a.value.pieces s 1 false)
  | [] => .nil
  | a :: r => by
    have hlead : Tracks some false true [.leaf a.target, .mark " = "] :=
      .leaf a.target (.mark (by decide) .nil)
    exact .cons (hlead.before (expr_tracks a.value 1 false)).loosen (assignments_track r)

theorem assignments_fill (as : List Assignment) :
    Fills 0 false (assignmentsLineUp s as) (assignmentPieces s as) := by
  have hlines : Fills 0 false (assignmentsLineUp s as) _ := .lines 1 (assignments_track as)
  simpa [assignmentPieces, Function.comp_def] using hlines

theorem conflictTarget_tracks (target : Option ConflictTarget) :
    Tracks some false false
      (match target with
        | some t => t.pieces
        | none => []) := by
  match target with
  | none => exact .nil
  | some (.columns cs) =>
    have hopen : TracksOpen some false ([] ++ [Piece.mark "("]) := .mark (by decide) .nil
    exact ((hopen.after (names_tracks cs)).close (by decide)).loosen
  | some (.onConstraint n) => exact (Tracks.mark (by decide) (.leaf n .nil)).loosen

theorem onConflict_fills (c : OnConflict) : Fills 0 false (c.linesUp s) (c.pieces s) := by
  obtain ⟨target, action⟩ := c
  have hlead : Tracks some false true [.mark "ON CONFLICT"] := .mark (by decide) .nil
  have hconflict : Fills 0 false true (newline 0 ++ ([Piece.mark "ON CONFLICT"] ++ _)) :=
    .clause 0 (hlead.after (conflictTarget_tracks target))
  cases action with
  | nothing =>
    have hnothing : Tracks some false true [.mark "DO NOTHING"] := .mark (by decide) .nil
    exact hconflict.append (.clause (d := 0) 0 hnothing)
  | update as condition =>
    have hupdate : Tracks some false true [.mark "DO UPDATE SET"] := .mark (by decide) .nil
    have hset : Fills 0 false true (newline 0 ++ [Piece.mark "DO UPDATE SET"]) := .clause 0 hupdate
    exact hconflict.append ((hset.append (assignments_fill as)).append (where_fills condition))

theorem conflictClause_fills (c : Option OnConflict) :
    Fills 0 false (c.elim true (OnConflict.linesUp s))
      (match c with
        | some c => c.pieces s
        | none => []) := by
  cases c with
  | none => exact .nil
  | some c => exact onConflict_fills c

theorem insertSource_fills (x : InsertSource) : Fills 0 true (x.linesUp s) (x.pieces s) := by
  cases x with
  | values rows =>
    have hlead : Tracks some false true [.mark "VALUES "] := .mark (by decide) .nil
    exact .start (hlead.before (.commas (rows_tracks rows 0)))
  | query q => exact query_fills q 0
  | defaultValues => exact .text (Tracks.mark (by decide) .nil : Tracks some false true _)

/-- The columns of an `INSERT`, or a line break where there is none, after its table. -/
theorem insertColumns_fill {b closed : Bool} {ts : List Piece} (cs : List String)
    (hts : Tracks some false b ts) (h : Fills 0 true closed ps) :
    Fills 0 true closed
      (ts ++
        (if cs.isEmpty then newline 0
          else [Piece.mark "("] ++ sepBy [Piece.mark ","] (cs.map fun c => newline 1 ++ [Piece.leaf c]) ++
            newline 0 ++ [Piece.mark ") "]) ++ ps) := by
  cases cs with
  | nil =>
    rw [List.append_assoc]
    exact .behind hts rfl (.afresh h)
  | cons c r =>
    have hcolumn (t : String) : Tracks some false false [.leaf t] := (Tracks.leaf t .nil).loosen
    have hcolumns : TracksEach ((c :: r).map fun _ => some) ((c :: r).map fun t => [Piece.leaf t]) :=
      List.forall₂_map_left_iff.2 (List.forall₂_map_right_iff.2 (List.forall₂_same.2 fun t _ => hcolumn t))
    have hlines := Fills.lines (d := 0) 1 hcolumns
    have hclosed : onLines 1 ((c :: r).map fun _ => some) = true := by simp [onLines]
    rw [hclosed] at hlines
    have hgroup : Tracks (group 0 true) false true
        ([Piece.mark "("] ++ _ ++ newline 0 ++ [Piece.mark ") "]) :=
      .group (by decide) (by decide) hlines (head?_lines 1 _)
    rw [List.map_map] at hgroup
    exact .behind (hts.append hgroup) rfl h

theorem insert_fills (i : Insert) :
    Fills 0 true ((Statement.insert i).linesUp s) (i.pieces s) := by
  obtain ⟨table, aliasName, columns, source, onConflict, returning⟩ := i
  have hlead : Tracks some false true [.mark "INSERT INTO ", .leaf table] :=
    .mark (by decide) (.leaf table .nil)
  have htable := hlead.after (targetName_tracks aliasName)
  have hsource := insertColumns_fill columns htable (insertSource_fills (s := s) source)
  have hconflict := hsource.append (conflictClause_fills (s := s) onConflict)
  exact hconflict.append (returning_fills (s := s) returning)

theorem update_fills (u : Update) :
    Fills 0 true ((Statement.update u).linesUp s) (u.pieces s) := by
  have hlead : Tracks some false true [.mark "UPDATE "] := .mark (by decide) .nil
  have htable : Fills 0 true true ([Piece.mark "UPDATE "] ++ u.table.pieces) :=
    .text (hlead.after (tableName_tracks u.table))
  have hword : Tracks some false true [.mark "SET"] := .mark (by decide) .nil
  have hset : Fills 0 false true (newline 0 ++ [Piece.mark "SET"]) := .clause 0 hword
  have hassignments := (htable.append hset).append (assignments_fill (s := s) u.assignments)
  have hcondition := hassignments.append (where_fills (s := s) u.condition)
  have hupdate := hcondition.append (returning_fills (s := s) u.returning)
  simpa [Update.pieces, Statement.linesUp] using hupdate

theorem delete_fills (x : Delete) :
    Fills 0 true ((Statement.delete x).linesUp s) (x.pieces s) := by
  have hlead : Tracks some false true [.mark "DELETE FROM "] := .mark (by decide) .nil
  have htable : Fills 0 true true ([Piece.mark "DELETE FROM "] ++ x.table.pieces) :=
    .text (hlead.after (tableName_tracks x.table))
  exact (htable.append (where_fills x.condition)).append (returning_fills x.returning)

theorem statement_fills (s : Style) (t : Statement) : Fills 0 true (t.linesUp s) (t.pieces s) := by
  cases t with
  | select q => exact query_fills q 0
  | insert i => exact insert_fills i
  | update u => exact update_fills u
  | delete x => exact delete_fills x

/-! ### Places -/

theorem Laid.mark_line {S : String → Prop} {o o' : Edge} (h : Laid s S o o' ps) :
    ∀ p ∈ ps, ∀ m, p = .mark m → '\n' ∉ m.toList := by
  have hjoints : ∀ m ∈ joints, '\n' ∉ m.toList := by decide
  induction h with
  | nil | loose => exact List.forall_mem_nil _
  | mark hm _ ih => exact List.forall_mem_cons.2 ⟨fun _ heq => Piece.mark.inj heq ▸ hjoints _ hm, ih⟩
  | star _ ih => exact List.forall_mem_cons.2 ⟨fun _ heq => Piece.mark.inj heq ▸ (by decide), ih⟩
  | empty _ ih => exact List.forall_mem_cons.2 ⟨fun _ heq => Piece.mark.inj heq ▸ (by decide), ih⟩
  | lineBreak _ ih | indent _ _ ih | leaf _ _ ih => exact List.forall_mem_cons.2 ⟨nofun, ih⟩
  | sign _ _ _ _ iharg ih => exact List.forall_mem_cons.2 ⟨nofun, List.forall_mem_append.2 ⟨iharg, ih⟩⟩

/-- The cursor knows the indentation of the lines of a statement. -/
theorem statement_stands {t : Statement} (h : ∀ l ∈ t.leaves, l.Lacks '\n') {c : Cursor}
    (hps : ps <+: t.pieces s) (hafter : Cursor.first.after ps = some c) :
    c.Stands s (Piece.textOf s ps).toList := by
  have hlaid : Laid s (fun _ => True) .fenced .bare (t.pieces s) := by
    refine statement_laid s t fun n _ => ?_
    unfold Node.Prefixed
    split <;> trivial
  have hleaves : ∀ u, .leaf u ∈ ps → '\n' ∉ u.toList := by
    intro u hu
    have hmem : u ∈ leafTexts (t.pieces s) := List.mem_filterMap.2 ⟨_, hps.subset hu, rfl⟩
    rw [leafTexts_emitted, List.mem_map] at hmem
    obtain ⟨l, hl, rfl⟩ := hmem
    exact (h l ((statement_emits t).sublist.subset hl)).not_mem_written (.inl rfl) s
  exact (Cursor.Stands.first s).after (fun m hm => hlaid.mark_line _ (hps.subset hm) m rfl) hleaves hafter

/-- The cursor knows the indentation of each line of a statement, and each group closes with the
indentation of the line on which it opens exactly if no group opens on a deeper line than it is laid
out for. -/
theorem groups_lineUp_iff {t : Statement} (h : ∀ l ∈ t.leaves, l.Lacks '\n') (s : Style) :
    (∀ ps c, ps <+: t.pieces s → Cursor.first.after ps = some c → c.Stands s (Piece.textOf s ps).toList) ∧
      (LinesUp (t.pieces s) ↔ t.linesUp s = true) :=
  ⟨fun _ _ hps hafter => statement_stands h hps hafter, (statement_fills s t).linesUp_iff⟩

theorem groups_lineUp_conditions : ∃ x t,
    Sql.parse "select a from t where (b or c) and d in (select 1) order by a, b" = .ok [x] ∧
    Statement.ofSql x = .ok t ∧ (∀ l ∈ t.leaves, l.Lacks '\n') ∧
    t.render {} = "SELECT\n  a\nFROM t\nWHERE (\n  b\n    OR c\n)\n  AND d IN (\n    SELECT\n" ++
      "      1\n  )\nORDER BY a,\n  b" ∧
    LinesUp (t.pieces {}) := by
  obtain ⟨x, t, hx, ht, hcheck⟩ := exists_of_readOne?
    "select a from t where (b or c) and d in (select 1) order by a, b"
    (fun _ t => decide (∀ l ∈ t.leaves, l.Lacks '\n') &&
      t.render {} == "SELECT\n  a\nFROM t\nWHERE (\n  b\n    OR c\n)\n  AND d IN (\n    SELECT\n" ++
        "      1\n  )\nORDER BY a,\n  b" &&
      t.linesUp {}) (by decide +kernel)
  simp only [Bool.and_eq_true, decide_eq_true_iff, beq_iff_eq] at hcheck
  obtain ⟨⟨hleaves, hrender⟩, hgroups⟩ := hcheck
  exact ⟨x, t, hx, ht, hleaves, hrender, (groups_lineUp_iff hleaves {}).2.2 hgroups⟩

/-- Where a query is the second item of `ORDER BY`, it closes on a line that is less deep than the one
on which it opens. -/
theorem orderBy_misaligns : ∃ x t,
    Sql.parse "select a from t order by b, (select 1)" = .ok [x] ∧ Statement.ofSql x = .ok t ∧
    (∀ n ∈ t.nodes, n.HasTargets) ∧ (∀ l ∈ t.leaves, l.Lacks '\n') ∧
    t.render {} = "SELECT\n  a\nFROM t\nORDER BY b,\n  (\n  SELECT\n    1\n)" ∧
    ¬ LinesUp (t.pieces {}) := by
  obtain ⟨x, t, hx, ht, hcheck⟩ := exists_of_readOne? "select a from t order by b, (select 1)"
    (fun _ t => decide (∀ n ∈ t.nodes, n.HasTargets) && decide (∀ l ∈ t.leaves, l.Lacks '\n') &&
      t.render {} == "SELECT\n  a\nFROM t\nORDER BY b,\n  (\n  SELECT\n    1\n)" &&
      decide (¬ LinesUp (t.pieces {}))) (by decide +kernel)
  simp only [Bool.and_eq_true, decide_eq_true_iff, beq_iff_eq] at hcheck
  obtain ⟨⟨⟨htargets, hleaves⟩, hrender⟩, hgroups⟩ := hcheck
  exact ⟨x, t, hx, ht, htargets, hleaves, hrender, hgroups⟩

end SqlLayout.Layout
