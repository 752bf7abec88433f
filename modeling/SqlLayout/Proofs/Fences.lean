import SqlLayout.Layout.Render
import SqlLayout.Proofs.Nodes

/-!
The pieces of a statement. Fixed text comes from a finite list, and it stands between any two texts of
the tree that follow each other, unless the first of them is the sign before an operand.
-/

namespace SqlLayout.Layout

open Piece (newline sepBy commas leaves)

/-- The fixed texts that the layout writes. -/
def marks : List String :=
  [" ", ".", ".*", "*", ",", ", ", "(", ")", ") ", "]", "[]", "::", " = ", "NOT ", "AND ", "OR ",
    " AND ", " IS NULL", " IS NOT NULL", " IS TRUE", " IS NOT TRUE", " IS FALSE", " IS NOT FALSE",
    " IS UNKNOWN", " IS NOT UNKNOWN", " ANY(", " ALL(", " ESCAPE ", "EXISTS(", "ALL(", "ANY(",
    "ARRAY(", "IN (", "BETWEEN ", "ARRAY[", "COALESCE(", "CASE", " WHEN ", " THEN ", " ELSE ", " END",
    "DISTINCT ", " ORDER BY ", " WITHIN GROUP (ORDER BY ", " FILTER (WHERE ", " OVER(",
    "PARTITION BY ", "ORDER BY ", " ASC", " DESC", " NULLS FIRST", " NULLS LAST", "WITH ",
    "RECURSIVE ", " AS ", "UNION", "UNION ALL", "INTERSECT", "INTERSECT ALL", "EXCEPT", "EXCEPT ALL",
    "VALUES ", "SELECT", " DISTINCT", " DISTINCT ON (", "FROM ", "WHERE ", "GROUP BY ", "HAVING ",
    "LIMIT ", "OFFSET ", "FOR UPDATE", "FOR SHARE", " OF ", " NOWAIT", " SKIP LOCKED", "LATERAL ",
    "NATURAL ", "JOIN ", "INNER JOIN ", "LEFT JOIN ", "LEFT OUTER JOIN ", "RIGHT JOIN ",
    "RIGHT OUTER JOIN ", "FULL JOIN ", "CROSS JOIN ", "ON ", " ON ", " USING(", "RETURNING ",
    "INSERT INTO ", "DEFAULT VALUES", "ON CONFLICT", " ON CONSTRAINT ", "DO NOTHING", "DO UPDATE SET",
    "UPDATE ", "SET", "DELETE FROM "]

/-- The fixed texts that may stand after a text of the tree. The star is not one of them: after a slash
it would open a comment. -/
def joints : List String :=
  marks.erase "*"

/-- Whether a text of the tree may end at a place. -/
inductive Edge
  | bare
  | fenced

/-- Pieces that are laid out between two places. A prefix operator with `S` needs no fixed text before
an operand that starts with no sign. -/
inductive Laid (s : Style) (S : String → Prop) : Edge → Edge → List Piece → Prop
  | nil {a : Edge} : Laid s S a a []
  | loose : Laid s S .fenced .bare []
  | mark {a b : Edge} {m : String} {ps : List Piece} (hm : m ∈ joints) (h : Laid s S .fenced b ps) :
    Laid s S a b (.mark m :: ps)
  | star {b : Edge} {ps : List Piece} (h : Laid s S .fenced b ps) :
    Laid s S .fenced b (.mark "*" :: ps)
  | empty {a b : Edge} {ps : List Piece} (h : Laid s S a b ps) : Laid s S a b (.mark "" :: ps)
  | lineBreak {a b : Edge} {ps : List Piece} (h : Laid s S .fenced b ps) :
    Laid s S a b (.lineBreak :: ps)
  | indent {a b : Edge} {ps : List Piece} (d : Nat) (h : Laid s S a b ps) :
    Laid s S a b (.indent d :: ps)
  | leaf {b : Edge} {ps : List Piece} (t : String) (h : Laid s S .bare b ps) :
    Laid s S .fenced b (.leaf t :: ps)
  | sign {b : Edge} {op : String} {arg ps : List Piece} (hop : S op)
    (hsign : startsWithSign s arg = false) (harg : Laid s S .fenced .bare arg) (h : Laid s S .bare b ps) :
    Laid s S .fenced b (.leaf op :: (arg ++ ps))

/-- The condition on the prefix operator of a node. -/
def Node.Prefixed (S : String → Prop) : Node → Prop
  | .expr (.unary op _) => S op
  | _ => True

variable {S : String → Prop} {a b c : Edge} {s : Style} {ps qs : List Piece}

namespace Laid

theorem tighten (h : Laid s S .bare b ps) : Laid s S .fenced b ps := by
  generalize ha : Edge.bare = a at h
  induction h with
  | nil =>
    subst ha
    exact .loose
  | mark hm h => exact .mark hm h
  | empty _ ih => exact .empty (ih ha)
  | lineBreak h => exact .lineBreak h
  | indent d _ ih => exact .indent d (ih ha)
  | loose | star | leaf | sign => cases ha

theorem append (h : Laid s S a b ps) (h' : Laid s S b c qs) : Laid s S a c (ps ++ qs) := by
  induction h with
  | nil => exact h'
  | loose => exact h'.tighten
  | mark hm _ ih => exact .mark hm (ih h')
  | star _ ih => exact .star (ih h')
  | empty _ ih => exact .empty (ih h')
  | lineBreak _ ih => exact .lineBreak (ih h')
  | indent d _ ih => exact .indent d (ih h')
  | leaf t _ ih => exact .leaf t (ih h')
  | sign hop hsign harg _ _ ih =>
    rw [List.cons_append, List.append_assoc]
    exact .sign hop hsign harg (ih h')

theorem nil_bare (a : Edge) : Laid s S a .bare [] := by
  cases a with
  | bare => exact .nil
  | fenced => exact .loose

theorem loosen (h : Laid s S a b ps) : Laid s S a .bare ps := by
  simpa using h.append (nil_bare b)

theorem newline (d : Nat) (h : Laid s S .fenced b ps) : Laid s S a b (Piece.newline d ++ ps) :=
  .lineBreak (.indent d h)

theorem sepBy {separator : List Piece} {pss : List (List Piece)}
    (hseparator : Laid s S .bare .fenced separator) (h : ∀ ps ∈ pss, Laid s S .fenced .bare ps) :
    Laid s S .fenced .bare (Piece.sepBy separator pss) := by
  fun_induction Piece.sepBy separator pss with
  | case1 => exact .loose
  | case2 ps => exact h ps List.mem_cons_self
  | case3 ps qs r ih =>
    have hrest := ih fun x hx => h x (List.mem_cons_of_mem ps hx)
    exact ((h ps List.mem_cons_self).append hseparator).append hrest

theorem commas {pss : List (List Piece)} (h : ∀ ps ∈ pss, Laid s S .fenced .bare ps) :
    Laid s S .fenced .bare (Piece.commas pss) :=
  sepBy (.mark (by decide) .nil) h

theorem leaves {separator : String} (h : separator ∈ joints) (ts : List String) :
    Laid s S .fenced .bare (Piece.leaves separator ts) := by
  refine sepBy (.mark h .nil) ?_
  simp only [List.mem_map]
  rintro _ ⟨t, -, rfl⟩
  exact .leaf t .nil

/-- Groups that stand on lines of their own. -/
theorem lines {separator : List Piece} {pss : List (List Piece)} {d : Nat}
    (hseparator : Laid s S .bare .fenced separator) (h : ∀ ps ∈ pss, Laid s S .fenced .bare ps) :
    Laid s S .fenced .bare (Piece.sepBy separator (pss.map (Piece.newline d ++ ·))) := by
  refine sepBy hseparator ?_
  simp only [List.mem_map]
  rintro _ ⟨ps, hps, rfl⟩
  exact .newline d (h ps hps)

/-- Pieces that are left out when there is nothing to write. -/
theorem ite {p : Prop} [Decidable p] (h : Laid s S a b ps) : Laid s S a .bare (if p then [] else ps) := by
  split
  · exact nil_bare a
  · exact h.loosen

end Laid

/-! ### Parts without expressions -/

theorem notMark_laid (negated : Bool) : Laid s S .fenced .fenced (notMark negated) := by
  cases negated with
  | false => exact .nil
  | true => exact .mark (by decide) .nil

theorem aliasPieces_laid (name : Option String) : Laid s S .bare .bare (aliasPieces name) := by
  cases name with
  | none => exact .nil
  | some t => exact .mark (by decide) (.leaf t .nil)

theorem columnPieces_laid (fields : List String) (wildcard : Bool) :
    Laid s S .fenced .bare (columnPieces fields wildcard) := by
  cases fields with
  | nil => exact .star .loose
  | cons w ws =>
    refine (Laid.leaves (by decide) (w :: ws)).append ?_
    cases wildcard with
    | false => exact .nil
    | true => exact .mark (by decide) .loose

theorem functionName_laid (s : Style) (name : List String) :
    Laid s S .fenced .bare (functionName s name) := by
  unfold functionName
  split
  · exact .loose
  · exact .leaves (by decide) _

theorem tableName_laid (t : TableName) : Laid s S .fenced .bare t.pieces := by
  have hname : Laid s S .fenced .bare ([.leaf t.name] ++ aliasPieces t.aliasName) :=
    .leaf t.name (aliasPieces_laid t.aliasName)
  unfold TableName.pieces
  cases t.schema with
  | none => exact hname
  | some schema => exact .leaf schema (.mark (by decide) hname)

theorem lockedTable_laid (of : Option String) :
    Laid s S .fenced .bare
      (match of with
        | some t => [.mark " OF ", .leaf t]
        | none => []) := by
  cases of with
  | none => exact .loose
  | some t => exact .mark (by decide) (.leaf t .nil)

theorem waiting_laid (waiting : Option Waiting) :
    Laid s S .bare .bare
      (match waiting with
        | some w => [.mark (" " ++ w.text)]
        | none => []) := by
  cases waiting with
  | none => exact .nil
  | some w =>
    have hw : " " ++ w.text ∈ joints := by cases w <;> decide
    exact .mark hw .loose

theorem locking_laid (l : Locking) : Laid s S .fenced .bare l.pieces := by
  obtain ⟨strength, of, waiting⟩ := l
  have hstrength : strength.text ∈ joints := by cases strength <;> decide
  exact .append (.mark hstrength (lockedTable_laid of)) (waiting_laid waiting)

theorem lockings_laid (ls : List Locking) (d : Nat) :
    Laid s S .bare .bare ((ls.map fun l => newline d ++ l.pieces).flatten) := by
  induction ls with
  | nil => exact .nil
  | cons l r ih => exact (Laid.newline d (locking_laid l)).append ih

theorem brackets_laid (n : Nat) : Laid s S .bare .bare (List.replicate n (.mark "[]")) := by
  induction n with
  | zero => exact .nil
  | succ n ih => exact .mark (by decide) ih.tighten

theorem sortClause_laid {lead closing : String} {items : List (List Piece)} (hlead : lead ∈ joints)
    (hclosing : Laid s S .bare .bare [.mark closing]) (h : ∀ ps ∈ items, Laid s S .fenced .bare ps) :
    Laid s S a .bare (sortClause lead [.mark ", "] items closing) :=
  .ite (((Laid.mark hlead .nil).append (.commas h)).append hclosing)

/-- A chain of conditions, which stands in parentheses where it is an operand. -/
theorem group_laid {c : Connective} {args : List Expr} (isOperand : Bool) (d : Nat)
    (h : ∀ d, Laid s S .fenced .bare (chainPieces s d c args)) :
    Laid s S .fenced .bare
      (if isOperand then
        [.mark "(", .lineBreak, .indent (d + 1)] ++ chainPieces s (d + 1) c args ++ newline d ++
          [.mark ")"]
      else chainPieces s d c args) := by
  cases isOperand with
  | false => exact h d
  | true =>
    have hopen : Laid s S .fenced .fenced [.mark "(", .lineBreak, .indent (d + 1)] :=
      .mark (by decide) (.lineBreak (.indent (d + 1) .nil))
    exact ((hopen.append (h (d + 1))).append (.newline d .nil)).append (.mark (by decide) .loose)

theorem closing_laid (q : Quantifier) : Laid s S .bare .bare [.mark q.closing] := by
  cases q with
  | none => exact .empty .nil
  | any => exact .mark (by decide) .loose
  | all => exact .mark (by decide) .loose

theorem opening_mem (q : Quantifier) : q.opening ∈ joints := by
  cases q <;> decide

theorem direction_laid (x : Direction) : Laid s S .bare .bare [.mark x.text] := by
  cases x with
  | default => exact .empty .nil
  | ascending => exact .mark (by decide) .loose
  | descending => exact .mark (by decide) .loose

theorem nulls_laid (x : Option Nulls) :
    Laid s S .bare .bare
      (match x with
        | some n => [.mark n.text]
        | none => []) := by
  cases x with
  | none => exact .nil
  | some n => exact .mark (by cases n <;> decide) .loose

theorem targetName_laid (name : Option String) :
    Laid s S .bare .bare
      (match name with
        | some n => [.mark " AS ", .leaf n]
        | none => []) := by
  cases name with
  | none => exact .nil
  | some n => exact .mark (by decide) (.leaf n .nil)

/-- A word that stands before something, with the blank after it. -/
theorem word_laid {w : String} (hw : w ∈ joints) (present : Bool) :
    Laid s S .fenced .fenced (if present then [.mark w] else []) := by
  cases present with
  | false => exact .nil
  | true => exact .mark hw .nil

/-! ### Expressions and queries -/

mutual

theorem expr_laid : (e : Expr) → (d : Nat) → (isOperand : Bool) → (∀ n ∈ e.nodes, n.Prefixed S) →
    Laid s S .fenced .bare (e.pieces s d isOperand)
  | .column fields wildcard, _, _, _ => columnPieces_laid fields wildcard
  | .keyword w, _, _, _ => .leaf (Text.upper w) .nil
  | .const c, _, _, _ => .leaf c.text .nil
  | .param n, _, _, _ => .leaf ("$" ++ toString n) .nil
  | .call c, d, _, h => call_laid c d h
  | .operation q op l r escape, d, _, h => by
    simp only [Expr.nodes, List.forall_mem_cons, List.forall_mem_append] at h
    obtain ⟨-, ⟨hl, hr⟩, hescape⟩ := h
    have hop : Laid s S .bare .fenced [.mark " ", .leaf (operatorText op), .mark q.opening] :=
      .mark (by decide) (.leaf _ (.mark (opening_mem q) .nil))
    have hlead : Laid s S .bare .fenced [.mark " ESCAPE "] := .mark (by decide) .nil
    exact ((((expr_laid l d false hl).append hop).append (expr_laid r d false hr)).append
      (closing_laid q)).append (option_laid escape d hlead hescape)
  | .logic .not args, d, _, h => by
    simp only [Expr.nodes, List.forall_mem_cons] at h
    exact .mark (by decide) (first_laid args d h.2)
  | .logic .and args, d, isOperand, h => by
    simp only [Expr.nodes, List.forall_mem_cons] at h
    exact group_laid isOperand d fun d => chain_laid .and args d h.2
  | .logic .or args, d, isOperand, h => by
    simp only [Expr.nodes, List.forall_mem_cons] at h
    exact group_laid isOperand d fun d => chain_laid .or args d h.2
  | .nullTest e t, d, _, h => by
    simp only [Expr.nodes, List.forall_mem_cons] at h
    have ht : " " ++ t.text ∈ joints := by cases t <;> decide
    exact (expr_laid e d false h.2).append (.mark ht .loose)
  | .truthTest e t, d, _, h => by
    simp only [Expr.nodes, List.forall_mem_cons] at h
    have ht : " " ++ t.text ∈ joints := by cases t <;> decide
    exact (expr_laid e d false h.2).append (.mark ht .loose)
  | .cast e typeName bounds, d, _, h => by
    simp only [Expr.nodes, List.forall_mem_cons] at h
    exact ((expr_laid e d false h.2).append (.mark (by decide) (.leaf typeName .nil))).append
      (brackets_laid bounds)
  | .caseOf arg whens default, d, _, h => by
    simp only [Expr.nodes, List.forall_mem_cons, List.forall_mem_append] at h
    obtain ⟨-, ⟨harg, hwhens⟩, hdefault⟩ := h
    have hblank : Laid s S .fenced .fenced [.mark " "] := .mark (by decide) .nil
    have helse : Laid s S .bare .fenced [.mark " ELSE "] := .mark (by decide) .nil
    exact (((Laid.mark (by decide) (option_laid arg d hblank harg)).append
      (when_laid whens d hwhens)).append (option_laid default d helse hdefault)).append
      (.mark (by decide) .loose)
  | .coalesce args, d, _, h => by
    simp only [Expr.nodes, List.forall_mem_cons] at h
    exact (Laid.mark (by decide) (.commas (exprs_laid args d h.2))).append (.mark (by decide) .loose)
  | .link kind test op negated q, d, _, h => by
    simp only [Expr.nodes, List.forall_mem_cons, List.forall_mem_append] at h
    obtain ⟨-, htest, hq⟩ := h
    have hkind : kind.opening ∈ joints := by cases kind <;> decide
    have hopen : Laid s S .fenced .fenced [.mark kind.opening, .lineBreak] :=
      .mark hkind (.lineBreak .nil)
    have hclose : Laid s S .fenced .bare [.mark ")"] := .mark (by decide) .loose
    exact (((((test_laid test op d htest).append (notMark_laid negated)).append hopen).append
      (query_laid q (d + 1) hq)).append (.newline d .nil)).append hclose
  | .inList e list negated, d, _, h => by
    simp only [Expr.nodes, List.forall_mem_cons, List.forall_mem_append] at h
    obtain ⟨-, he, hlist⟩ := h
    have hopen : Laid s S .fenced .fenced [.mark "IN ("] := .mark (by decide) .nil
    exact (((((expr_laid e d false he).append (.mark (by decide) .nil)).append
      (notMark_laid negated)).append hopen).append (.commas (exprs_laid list d hlist))).append
      (.mark (by decide) .loose)
  | .between e low high negated, d, _, h => by
    simp only [Expr.nodes, List.forall_mem_cons, List.forall_mem_append] at h
    obtain ⟨-, ⟨he, hlow⟩, hhigh⟩ := h
    have hbetween : Laid s S .fenced .fenced [.mark "BETWEEN "] := .mark (by decide) .nil
    have hand : Laid s S .bare .fenced [.mark " AND "] := .mark (by decide) .nil
    exact ((((((expr_laid e d false he).append (.mark (by decide) .nil)).append
      (notMark_laid negated)).append hbetween).append (expr_laid low d false hlow)).append
      hand).append (expr_laid high d false hhigh)
  | .array es, d, _, h => by
    simp only [Expr.nodes, List.forall_mem_cons] at h
    exact (Laid.mark (by decide) (.commas (exprs_laid es d h.2))).append (.mark (by decide) .loose)
  | .unary op e, d, _, h => by
    simp only [Expr.nodes, List.forall_mem_cons] at h
    have harg : Laid s S .fenced .bare (e.pieces s d false) := expr_laid e d false h.2
    simp only [Expr.pieces]
    by_cases hsign : startsWithSign s (e.pieces s d false)
    · rw [if_pos hsign]
      exact .leaf op (.mark (by decide) harg)
    · rw [if_neg hsign]
      simpa using Laid.sign h.1 (by simpa using hsign) harg .nil
  | .nested e, d, _, h => by
    simp only [Expr.nodes, List.forall_mem_cons] at h
    exact (Laid.mark (by decide) (expr_laid e d false h.2)).append (.mark (by decide) .loose)
  | .verbatim t, _, _, _ => .leaf t .nil

theorem first_laid : (args : List Expr) → (d : Nat) → (∀ n ∈ exprNodes args, n.Prefixed S) →
    Laid s S .fenced .bare (firstOperand s d args)
  | [], _, _ => .loose
  | e :: r, d, h => by
    simp only [exprNodes, List.forall_mem_append] at h
    exact expr_laid e d true h.1

theorem chain_laid (c : Connective) : (args : List Expr) → (d : Nat) →
    (∀ n ∈ exprNodes args, n.Prefixed S) → Laid s S .fenced .bare (chainPieces s d c args)
  | [], _, _ => .loose
  | e :: r, d, h => by
    simp only [exprNodes, List.forall_mem_append] at h
    exact (expr_laid e d true h.1).append (chainRest_laid c r d h.2)

theorem chainRest_laid (c : Connective) : (args : List Expr) → (d : Nat) →
    (∀ n ∈ exprNodes args, n.Prefixed S) → Laid s S .bare .bare (chainRest s d c args)
  | [], _, _ => .nil
  | e :: r, d, h => by
    simp only [exprNodes, List.forall_mem_append] at h
    have hc : c.text ++ " " ∈ joints := by cases c <;> decide
    have hlead : Laid s S .bare .fenced (newline (d + 1)) := .newline (d + 1) .nil
    exact ((hlead.append (.mark hc .nil)).append (expr_laid e (d + 1) true h.1)).append
      (chainRest_laid c r d h.2)

theorem exprs_laid : (es : List Expr) → (d : Nat) → (∀ n ∈ exprNodes es, n.Prefixed S) →
    ∀ ps ∈ exprPieces s d es, Laid s S .fenced .bare ps
  | [], _, _ => List.forall_mem_nil _
  | e :: r, d, h => by
    simp only [exprNodes, List.forall_mem_append] at h
    exact List.forall_mem_cons.2 ⟨expr_laid e d false h.1, exprs_laid r d h.2⟩

theorem option_laid {o : Edge} {lead : List Piece} : (e : Option Expr) → (d : Nat) →
    Laid s S o .fenced lead → (∀ n ∈ optionNodes e, n.Prefixed S) →
    Laid s S o .bare (optionPieces s d lead e)
  | none, _, _, _ => .nil_bare o
  | some e, d, hlead, h => hlead.append (expr_laid e d false h)

/-- What stands before the keyword of a link. -/
theorem test_laid : (test : Option Expr) → (op : Option String) → (d : Nat) →
    (∀ n ∈ optionNodes test, n.Prefixed S) →
    Laid s S .fenced .fenced (testPieces s d op test)
  | none, _, _, _ => .nil
  | some e, none, d, h => ((expr_laid e d false h).append (.mark (by decide) .nil)).append .nil
  | some e, some o, d, h =>
    ((expr_laid e d false h).append (.mark (by decide) .nil)).append (.leaf o (.mark (by decide) .nil))

theorem when_laid : (ws : List When) → (d : Nat) → (∀ n ∈ whenNodes ws, n.Prefixed S) →
    Laid s S .bare .bare (whenPieces s d ws)
  | [], _, _ => .nil
  | ⟨c, r⟩ :: ws, d, h => by
    simp only [whenNodes, List.forall_mem_append] at h
    obtain ⟨⟨hc, hr⟩, hws⟩ := h
    have hthen : Laid s S .bare .fenced [.mark " THEN "] := .mark (by decide) .nil
    exact (((Laid.mark (by decide) (expr_laid c d false hc)).append hthen).append
      (expr_laid r d false hr)).append (when_laid ws d hws)

theorem call_laid : (c : Call) → (d : Nat) → (∀ n ∈ c.nodes, n.Prefixed S) →
    Laid s S .fenced .bare (c.pieces s d)
  | ⟨name, args, distinct, star, orderBy, withinGroup, filter, window⟩, d, h => by
    simp only [Call.nodes, List.forall_mem_cons, List.forall_mem_append] at h
    obtain ⟨-, ⟨⟨⟨hargs, horder⟩, hwithin⟩, hfilter⟩, hwindow⟩ := h
    have hopen : Laid s S .bare .fenced [.mark "("] := .mark (by decide) .nil
    have hdistinct : Laid s S .fenced .fenced (if distinct then [.mark "DISTINCT "] else []) :=
      word_laid (by decide) distinct
    have hargs' : Laid s S .fenced .bare
        (if star then [.mark "*"] else commas (argPieces s d args)) := by
      split
      · exact .star .loose
      · exact .commas (args_laid args d hargs)
    have horder' : Laid s S .bare .bare (sortClause " ORDER BY " [.mark ", "] (sortPieces s d orderBy) "") :=
      sortClause_laid (by decide) (.empty .nil) (sort_laid orderBy d horder)
    have hclose : Laid s S .bare .bare [.mark ")"] := .mark (by decide) .loose
    have hwithin' : Laid s S .bare .bare
        (sortClause " WITHIN GROUP (ORDER BY " [.mark ", "] (sortPieces s d withinGroup) ")") :=
      sortClause_laid (by decide) hclose (sort_laid withinGroup d hwithin)
    exact ((((((((functionName_laid s name).append hopen).append hdistinct).append hargs').append
      horder').append hclose).append hwithin').append (filter_laid filter d hfilter)).append (window_laid window d hwindow)

theorem filter_laid : (filter : Option Expr) → (d : Nat) →
    (∀ n ∈ optionNodes filter, n.Prefixed S) →
    Laid s S .bare .bare (filterPieces s d filter)
  | none, _, _ => .nil
  | some e, d, h =>
    (Laid.mark (by decide) (expr_laid e d false h)).append (.mark (by decide) .loose)

theorem args_laid : (args : List Arg) → (d : Nat) → (∀ n ∈ argNodes args, n.Prefixed S) →
    ∀ ps ∈ argPieces s d args, Laid s S .fenced .bare ps
  | [], _, _ => List.forall_mem_nil _
  | .positional e :: r, d, h => by
    simp only [argNodes, List.forall_mem_append] at h
    exact List.forall_mem_cons.2 ⟨expr_laid e d false h.1, args_laid r d h.2⟩
  | .named name sign e :: r, d, h => by
    simp only [argNodes, List.forall_mem_append] at h
    have hname : Laid s S .fenced .bare
        ([.leaf name, .mark " ", .leaf sign, .mark " "] ++ e.pieces s d false) :=
      .leaf name (.mark (by decide) (.leaf sign (.mark (by decide) (expr_laid e d false h.1))))
    exact List.forall_mem_cons.2 ⟨hname, args_laid r d h.2⟩

theorem sort_laid : (items : List SortItem) → (d : Nat) → (∀ n ∈ sortNodes items, n.Prefixed S) →
    ∀ ps ∈ sortPieces s d items, Laid s S .fenced .bare ps
  | [], _, _ => List.forall_mem_nil _
  | ⟨e, direction, nulls⟩ :: r, d, h => by
    simp only [sortNodes, List.forall_mem_append] at h
    have hexpr : Laid s S .fenced .bare (e.pieces s d false) := expr_laid e d false h.1
    have hitem := (hexpr.append (direction_laid direction)).append (nulls_laid nulls)
    exact List.forall_mem_cons.2 ⟨hitem, sort_laid r d h.2⟩

theorem window_laid : (w : Option Window) → (d : Nat) → (∀ n ∈ windowNodes w, n.Prefixed S) →
    Laid s S .bare .bare (windowPieces s d w)
  | none, _, _ => .nil
  | some ⟨partitionBy, orderBy, frame⟩, d, h => by
    simp only [windowNodes, List.forall_mem_append] at h
    have hclose : Laid s S .bare .bare [.mark ")"] := .mark (by decide) .loose
    refine (Laid.mark (by decide) (.sepBy (.mark (by decide) .nil) ?_)).append hclose
    simp only [List.forall_mem_append]
    refine ⟨⟨?_, ?_⟩, ?_⟩
    · split
      · exact List.forall_mem_nil _
      · exact List.forall_mem_singleton.2 (.mark (by decide) (.commas (exprs_laid partitionBy d h.1)))
    · split
      · exact List.forall_mem_nil _
      · exact List.forall_mem_singleton.2 (.mark (by decide) (.commas (sort_laid orderBy d h.2)))
    · cases frame with
      | none => exact List.forall_mem_nil _
      | some f => exact List.forall_mem_singleton.2 (.leaf f .nil)

theorem query_laid : (q : Query) → (d : Nat) → (∀ n ∈ q.nodes, n.Prefixed S) →
    Laid s S .fenced .bare (q.pieces s d)
  | ⟨withClause, body, orderBy, limit, offset, locking⟩, d, h => by
    simp only [Query.nodes, List.forall_mem_append] at h
    obtain ⟨⟨⟨⟨hwith, hbody⟩, horder⟩, hlimit⟩, hoffset⟩ := h
    have horder' : Laid s S .bare .bare
        (if (sortPieces s d orderBy).isEmpty then []
          else newline d ++ [.mark "ORDER BY "] ++
            sepBy (.mark "," :: newline (d + 1)) (sortPieces s d orderBy)) := by
      refine .ite (.newline d (.mark (by decide) (.sepBy ?_ (sort_laid orderBy d horder))))
      exact .mark (by decide) (.newline (d + 1) .nil)
    have hlead {w : String} (hw : w ∈ joints) : Laid s S .bare .fenced (newline d ++ [.mark w]) :=
      .newline d (.mark hw .nil)
    exact .ite ((((((with_laid withClause d hwith).append (body_laid body d hbody)).append
      horder').append (option_laid limit d (hlead (by decide)) hlimit)).append
      (option_laid offset d (hlead (by decide)) hoffset)).append (lockings_laid locking d))

theorem with_laid : (w : Option With) → (d : Nat) → (∀ n ∈ withNodes w, n.Prefixed S) →
    Laid s S .fenced .fenced (withPieces s d w)
  | none, _, _ => .nil
  | some ⟨isRecursive, ctes⟩, d, h => by
    have hwith : Laid s S .fenced .fenced [.indent d, .mark "WITH "] := .indent d (.mark (by decide) .nil)
    have hrecursive : Laid s S .fenced .fenced (if isRecursive then [.mark "RECURSIVE "] else []) :=
      word_laid (by decide) isRecursive
    exact ((hwith.append hrecursive).append (.commas (ctes_laid ctes d h))).append (.lineBreak .nil)

theorem ctes_laid : (cs : List Cte) → (d : Nat) → (∀ n ∈ cteNodes cs, n.Prefixed S) →
    ∀ ps ∈ ctePieces s d cs, Laid s S .fenced .bare ps
  | [], _, _ => List.forall_mem_nil _
  | ⟨name, materialized, q⟩ :: r, d, h => by
    simp only [cteNodes, List.forall_mem_append] at h
    have hname : Laid s S .fenced .fenced [.leaf name, .mark " AS "] :=
      .leaf name (.mark (by decide) .nil)
    have hmaterialized : Laid s S .fenced .fenced
        (match materialized with
          | some m => [.leaf m, .mark " "]
          | none => []) := by
      cases materialized with
      | none => exact .nil
      | some m => exact .leaf m (.mark (by decide) .nil)
    have hopen : Laid s S .fenced .fenced [.mark "(", .lineBreak] := .mark (by decide) (.lineBreak .nil)
    have hquery : Laid s S .fenced .bare (q.pieces s (d + 1)) := query_laid q (d + 1) h.1
    have hclose : Laid s S .fenced .bare [.mark ")"] := .mark (by decide) .loose
    have hcte := ((((hname.append hmaterialized).append hopen).append hquery).append
      (.newline d .nil)).append hclose
    exact List.forall_mem_cons.2 ⟨hcte, ctes_laid r d h.2⟩

theorem body_laid : (b : Body) → (d : Nat) → (∀ n ∈ b.nodes, n.Prefixed S) →
    Laid s S .fenced .bare (b.pieces s d)
  | .select x, d, h => select_laid x d h
  | .setOp op all l r, d, h => by
    simp only [Body.nodes, List.forall_mem_append] at h
    have hop : op.text ++ (if all then " ALL" else "") ∈ joints := by
      cases op <;> cases all <;> decide
    have hbreak : Laid s S .fenced .fenced [.lineBreak] := .lineBreak .nil
    exact ((((body_laid l d h.1).append (.newline d .nil)).append (.mark hop .nil)).append
      hbreak).append (body_laid r d h.2)
  | .values rows, d, h => .indent d (.mark (by decide) (.commas (rows_laid rows d h)))
  | .query q, d, h => by
    have hopen : Laid s S .fenced .fenced [.indent d, .mark "(", .lineBreak] :=
      .indent d (.mark (by decide) (.lineBreak .nil))
    exact ((hopen.append (query_laid q (d + 1) h)).append (.newline d .nil)).append
      (.mark (by decide) .loose)

theorem rows_laid : (rows : List (List Expr)) → (d : Nat) → (∀ n ∈ rowNodes rows, n.Prefixed S) →
    ∀ ps ∈ rowPieces s d rows, Laid s S .fenced .bare ps
  | [], _, _ => List.forall_mem_nil _
  | es :: r, d, h => by
    simp only [rowNodes, List.forall_mem_append] at h
    have hrow : Laid s S .fenced .bare (sepBy [.mark ","]
        ((exprPieces s (d + 1) es).map (newline (d + 1) ++ ·))) :=
      .lines (.mark (by decide) .nil) (exprs_laid es (d + 1) h.1)
    have hopen : Laid s S .fenced .fenced [.mark "("] := .mark (by decide) .nil
    have hclose : Laid s S .fenced .bare [.mark ")"] := .mark (by decide) .loose
    have hwhole := ((hopen.append hrow).append (.newline d .nil)).append hclose
    exact List.forall_mem_cons.2 ⟨hwhole, rows_laid r d h.2⟩

theorem select_laid : (x : Select) → (d : Nat) → (∀ n ∈ x.nodes, n.Prefixed S) →
    Laid s S .fenced .bare (x.pieces s d)
  | ⟨distinct, targets, source, condition, groupBy, having⟩, d, h => by
    simp only [Select.nodes, List.forall_mem_cons, List.forall_mem_append] at h
    obtain ⟨-, ⟨⟨⟨⟨hdistinct, htargets⟩, hsource⟩, hcondition⟩, hgroups⟩, hhaving⟩ := h
    have hlead {w : String} (hw : w ∈ joints) : Laid s S .bare .fenced (newline d ++ [.mark w]) :=
      .newline d (.mark hw .nil)
    have hselect : Laid s S .fenced .fenced [.indent d, .mark "SELECT"] :=
      .indent d (.mark (by decide) .nil)
    have hsource' : Laid s S .bare .bare
        (if (fromPieces s d source).isEmpty then []
          else newline d ++ [.mark "FROM "] ++ commas (fromPieces s d source)) :=
      .ite ((hlead (by decide)).append (.commas (from_laid source d hsource)))
    have hgroups' : Laid s S .bare .bare
        (if (exprPieces s d groupBy).isEmpty then []
          else newline d ++ [.mark "GROUP BY "] ++ commas (exprPieces s d groupBy)) :=
      .ite ((hlead (by decide)).append (.commas (exprs_laid groupBy d hgroups)))
    exact .ite ((((((hselect.append (distinct_laid distinct d hdistinct)).append
      (.lines (.mark (by decide) .nil) (targets_laid targets (d + 1) htargets))).append
      hsource').append (option_laid condition d (hlead (by decide)) hcondition)).append
      hgroups').append (option_laid having d (hlead (by decide)) hhaving))

theorem distinct_laid : (x : Option Distinct) → (d : Nat) → (∀ n ∈ distinctNodes x, n.Prefixed S) →
    Laid s S .fenced .fenced (distinctPieces s d x)
  | none, _, _ => .nil
  | some .rows, _, _ => .mark (by decide) .nil
  | some (.on es), d, h =>
    (Laid.mark (by decide) (.commas (exprs_laid es d h))).append (.mark (by decide) .nil)

theorem targets_laid : (ts : List Target) → (d : Nat) → (∀ n ∈ targetNodes ts, n.Prefixed S) →
    ∀ ps ∈ targetPieces s d ts, Laid s S .fenced .bare ps
  | [], _, _ => List.forall_mem_nil _
  | ⟨e, name⟩ :: r, d, h => by
    simp only [targetNodes, List.forall_mem_append] at h
    have hexpr : Laid s S .fenced .bare (e.pieces s d false) := expr_laid e d false h.1
    exact List.forall_mem_cons.2 ⟨hexpr.append (targetName_laid name), targets_laid r d h.2⟩

theorem from_laid : (fs : List FromItem) → (d : Nat) → (∀ n ∈ fromNodes fs, n.Prefixed S) →
    ∀ ps ∈ fromPieces s d fs, Laid s S .fenced .bare ps
  | [], _, _ => List.forall_mem_nil _
  | f :: r, d, h => by
    simp only [fromNodes, List.forall_mem_append] at h
    exact List.forall_mem_cons.2 ⟨fromItem_laid f d h.1, from_laid r d h.2⟩

theorem fromItem_laid : (f : FromItem) → (d : Nat) → (∀ n ∈ f.nodes, n.Prefixed S) →
    Laid s S .fenced .bare (f.pieces s d)
  | .table t, _, _ => tableName_laid t
  | .function isLateral call name, d, h =>
    ((word_laid (by decide) isLateral).append (call_laid call d h)).append (aliasPieces_laid name)
  | .subquery isLateral q name, d, h => by
    have hopen : Laid s S .fenced .fenced [.mark "(", .lineBreak] := .mark (by decide) (.lineBreak .nil)
    have hclose : Laid s S .fenced .bare [.mark ")"] := .mark (by decide) .loose
    exact (((((word_laid (by decide) isLateral).append hopen).append (query_laid q (d + 1) h)).append
      (.newline d .nil)).append hclose).append (aliasPieces_laid name)
  | .join kind natural l r condition, d, h => by
    simp only [FromItem.nodes, List.forall_mem_append] at h
    obtain ⟨⟨hl, hr⟩, hcondition⟩ := h
    have hkind : kind.text ++ " " ∈ joints := by cases kind <;> decide
    have hnatural : Laid s S .fenced .fenced (if natural then [.mark "NATURAL "] else []) :=
      word_laid (by decide) natural
    exact (((((fromItem_laid l d hl).append (.newline _ .nil)).append hnatural).append
      (.mark hkind .nil)).append (fromItem_laid r _ hr)).append (joinCondition_laid condition _ hcondition)
  | .verbatim t, _, _ => .leaf t .nil

theorem joinCondition_laid : (c : JoinCondition) → (d : Nat) → (∀ n ∈ c.nodes, n.Prefixed S) →
    Laid s S .bare .bare (c.pieces s d)
  | .on e, d, h => by
    simp only [JoinCondition.pieces]
    split
    · have hlead : Laid s S .bare .fenced (newline (d + 1) ++ [.mark "ON "]) :=
        .newline (d + 1) (.mark (by decide) .nil)
      exact hlead.append (expr_laid e (d + 1) false h)
    · exact .mark (by decide) (expr_laid e d false h)
  | .byColumns cs, _, _ =>
    (Laid.mark (by decide) (.leaves (by decide) cs)).append (.mark (by decide) .loose)
  | .none, _, _ => .nil

end

/-! ### Statements -/

theorem where_laid (condition : Option Expr) (h : ∀ n ∈ optionNodes condition, n.Prefixed S) :
    Laid s S .bare .bare (wherePieces s condition) :=
  option_laid condition 0 (.newline 0 (.mark (by decide) .nil)) h

theorem returning_laid (ts : List Target) (h : ∀ n ∈ targetNodes ts, n.Prefixed S) :
    Laid s S .bare .bare (returningPieces s ts) := by
  have hlead : Laid s S .bare .fenced (newline 0 ++ [.mark "RETURNING "]) :=
    .newline 0 (.mark (by decide) .nil)
  exact .ite (hlead.append (.commas (targets_laid ts 0 h)))

theorem exprNodes_subset {e : Expr} {es : List Expr} (he : e ∈ es) : e.nodes ⊆ exprNodes es := by
  induction he with
  | head r => exact List.subset_append_left _ _
  | tail x _ ih => exact List.subset_append_of_subset_right _ ih

theorem assignments_laid (as : List Assignment) (h : ∀ n ∈ assignmentNodes as, n.Prefixed S) :
    Laid s S .fenced .bare (assignmentPieces s as) := by
  refine .sepBy (.mark (by decide) .nil) ?_
  simp only [List.mem_map]
  rintro _ ⟨x, hx, rfl⟩
  have hvalue := fun n hn => h n (exprNodes_subset (List.mem_map_of_mem hx) hn)
  have htarget : Laid s S .fenced .fenced [.leaf x.target, .mark " = "] :=
    .leaf x.target (.mark (by decide) .nil)
  exact .newline 1 (htarget.append (expr_laid x.value 1 false hvalue))

theorem conflictTarget_laid (target : Option ConflictTarget) :
    Laid s S .fenced .bare
      (match target with
        | some t => t.pieces
        | none => []) := by
  match target with
  | none => exact .loose
  | some (.columns cs) =>
    exact (Laid.mark (by decide) (.leaves (by decide) cs)).append (.mark (by decide) .loose)
  | some (.onConstraint n) => exact .mark (by decide) (.leaf n .nil)

theorem onConflict_laid (c : OnConflict) (h : ∀ n ∈ c.nodes, n.Prefixed S) :
    Laid s S .bare .bare (c.pieces s) := by
  obtain ⟨target, action⟩ := c
  have hlead : Laid s S .bare .fenced (newline 0 ++ [.mark "ON CONFLICT"]) :=
    .newline 0 (.mark (by decide) .nil)
  refine (hlead.append (conflictTarget_laid target)).append ?_
  cases action with
  | nothing => exact .newline 0 (.mark (by decide) .loose)
  | update as condition =>
    simp only [OnConflict.nodes, List.forall_mem_append] at h
    have hset : Laid s S .bare .fenced (newline 0 ++ [.mark "DO UPDATE SET"]) :=
      .newline 0 (.mark (by decide) .nil)
    exact (hset.append (assignments_laid as h.1)).append (where_laid condition h.2)

theorem conflictClause_laid (c : Option OnConflict) :
    (∀ n ∈ c.elim [] OnConflict.nodes, n.Prefixed S) →
    Laid s S .bare .bare
      (match c with
        | some c => c.pieces s
        | none => []) := by
  cases c with
  | none => exact fun _ => .nil
  | some c => exact onConflict_laid c

theorem insertSource_laid (x : InsertSource) (h : ∀ n ∈ x.nodes, n.Prefixed S) :
    Laid s S .fenced .bare (x.pieces s) := by
  cases x with
  | values rows => exact .mark (by decide) (.commas (rows_laid rows 0 h))
  | query q => exact query_laid q 0 h
  | defaultValues => exact .mark (by decide) .loose

/-- The columns of an `INSERT`, or a line break where there is none. -/
theorem insertColumns_laid (cs : List String) :
    Laid s S .bare .fenced
      (if cs.isEmpty then newline 0
        else [Piece.mark "("] ++ sepBy [Piece.mark ","] (cs.map fun c => newline 1 ++ [Piece.leaf c]) ++ newline 0 ++
          [Piece.mark ") "]) := by
  split
  · exact .newline 0 .nil
  · have hcolumns : Laid s S .fenced .bare (sepBy [.mark ","] (cs.map fun c => newline 1 ++ [.leaf c])) := by
      refine .sepBy (.mark (by decide) .nil) ?_
      simp only [List.mem_map]
      rintro _ ⟨c, -, rfl⟩
      exact .newline 1 (.leaf c .nil)
    exact ((Laid.mark (by decide) hcolumns).append (.newline 0 .nil)).append (.mark (by decide) .nil)

theorem insert_laid (i : Insert) (h : ∀ n ∈ i.nodes, n.Prefixed S) :
    Laid s S .fenced .bare (i.pieces s) := by
  obtain ⟨table, aliasName, columns, source, onConflict, returning⟩ := i
  simp only [Insert.nodes, List.forall_mem_append] at h
  obtain ⟨⟨hsource, hconflict⟩, hreturning⟩ := h
  have htable : Laid s S .fenced .bare [.mark "INSERT INTO ", .leaf table] :=
    .mark (by decide) (.leaf table .nil)
  have halias : Laid s S .bare .bare
      (match aliasName with
        | some a => [.mark " AS ", .leaf a]
        | none => []) :=
    targetName_laid aliasName
  exact ((((htable.append halias).append (insertColumns_laid columns)).append
    (insertSource_laid source hsource)).append (conflictClause_laid onConflict hconflict)).append
    (returning_laid returning hreturning)

theorem update_laid (u : Update) (h : ∀ n ∈ u.nodes, n.Prefixed S) :
    Laid s S .fenced .bare (u.pieces s) := by
  simp only [Update.nodes, List.forall_mem_append] at h
  obtain ⟨⟨hassignments, hcondition⟩, hreturning⟩ := h
  have hset : Laid s S .fenced .fenced [.mark "SET"] := .mark (by decide) .nil
  exact (((((Laid.mark (by decide) (tableName_laid u.table)).append (.newline 0 .nil)).append
    hset).append (assignments_laid u.assignments hassignments)).append
    (where_laid u.condition hcondition)).append (returning_laid u.returning hreturning)

theorem delete_laid (x : Delete) (h : ∀ n ∈ x.nodes, n.Prefixed S) :
    Laid s S .fenced .bare (x.pieces s) := by
  simp only [Delete.nodes, List.forall_mem_append] at h
  exact ((Laid.mark (by decide) (tableName_laid x.table)).append (where_laid x.condition h.1)).append
    (returning_laid x.returning h.2)

/-- The pieces of a statement keep the texts of the tree apart. -/
theorem statement_laid (s : Style) (t : Statement) (h : ∀ n ∈ t.nodes, n.Prefixed S) :
    Laid s S .fenced .bare (t.pieces s) := by
  cases t with
  | select q => exact query_laid q 0 h
  | insert i => exact insert_laid i h
  | update u => exact update_laid u h
  | delete x => exact delete_laid x h

end SqlLayout.Layout
