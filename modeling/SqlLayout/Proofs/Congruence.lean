import Mathlib.Data.List.Forall2
import SqlLayout.Proofs.Emission

/-!
Relations that layouts respect. What two styles make of a tree is put together from the same marks and
texts, so that a relation on pieces that is kept where pieces are put together holds of the layouts.
-/

namespace SqlLayout.Layout

open Piece (newline sepBy commas leaves)

/-- A character that ends a line or indents it. -/
def IsRuling (c : Char) : Prop :=
  c = '\n' ∨ c = '\t'

instance : DecidablePred IsRuling :=
  fun _ => inferInstanceAs (Decidable (_ ∨ _))

/-- A text without line breaks and tabs. -/
def IsFlat (t : String) : Prop :=
  ∀ c ∈ t.toList, ¬ IsRuling c

instance : DecidablePred IsFlat :=
  fun _ => inferInstanceAs (Decidable (∀ _ ∈ _, ¬ _))

/-- A relation between pieces in two styles that is kept where pieces are put together. -/
structure Congruence (s s' : Style) where
  /-- Pieces that stand within a line. -/
  Rel : List Piece → List Piece → Prop
  /-- Pieces that start a line, at the given depths. -/
  Line : Nat → Nat → List Piece → List Piece → Prop
  /-- Depths that go together. -/
  Depth : Nat → Nat → Prop
  /-- Whether a line may be left empty. -/
  Blank : Prop
  nil : Rel [] []
  mark (m : String) : IsFlat m → Rel [.mark m] [.mark m]
  leaf (t : String) : Rel [.leaf t] [.leaf t]
  function (name : String) :
    Rel [.leaf (casedName s.functionCase name)] [.leaf (casedName s'.functionCase name)]
  append {ps qs ps' qs' : List Piece} : Rel ps qs → Rel ps' qs' → Rel (ps ++ ps') (qs ++ qs')
  /-- A blank comes between two signs. -/
  signs {ps qs : List Piece} : Rel ps qs →
    Rel ((if startsWithSign s ps then [.mark " "] else []) ++ ps)
      ((if startsWithSign s' qs then [.mark " "] else []) ++ qs)
  /-- A condition stands on a line of its own or not, as each style has it. -/
  on {ps qs : Nat → List Piece} {d d' : Nat} :
    (∀ {e e'}, Depth e e' → Rel (ps e) (qs e')) → Depth d d' →
    Rel (if s.onOwnLine then newline (d + 1) ++ [.mark "ON "] ++ ps (d + 1) else [.mark " ON "] ++ ps d)
      (if s'.onOwnLine then newline (d' + 1) ++ [.mark "ON "] ++ qs (d' + 1)
        else [.mark " ON "] ++ qs d')
  empty {d d' : Nat} : Blank → Line d d' [] []
  indent {d d' : Nat} {ps qs : List Piece} :
    Depth d d' → Rel ps qs → Line d d' (.indent d :: ps) (.indent d' :: qs)
  continued {d d' : Nat} {ps qs ps' qs' : List Piece} :
    Line d d' ps qs → Rel ps' qs' → Line d d' (ps ++ ps') (qs ++ qs')
  afterBreak {d d' : Nat} {ps qs : List Piece} :
    Line d d' ps qs → Rel (.lineBreak :: ps) (.lineBreak :: qs)
  succ {d d' : Nat} : Depth d d' → Depth (d + 1) (d' + 1)
  join {d d' : Nat} : Depth d d' →
    Depth (if s.joinIndented then d + 1 else d) (if s'.joinIndented then d' + 1 else d')

variable {s s' : Style} {C : Congruence s s'} {d d' : Nat}
variable {ps qs ps' qs' : List Piece} {pss qss : List (List Piece)}

namespace Congruence

namespace Rel

theorem nil : C.Rel [] [] :=
  C.nil

theorem append (h : C.Rel ps qs) (h' : C.Rel ps' qs') : C.Rel (ps ++ ps') (qs ++ qs') :=
  C.append h h'

theorem mark (m : String) (hm : IsFlat m) (h : C.Rel ps qs) :
    C.Rel (.mark m :: ps) (.mark m :: qs) :=
  C.append (C.mark m hm) h

theorem blank (h : C.Rel ps qs) : C.Rel (.mark " " :: ps) (.mark " " :: qs) :=
  mark " " (by decide) h

theorem closing : C.Rel [.mark ")"] [.mark ")"] :=
  C.mark ")" (by decide)

theorem leaf (t : String) (h : C.Rel ps qs) : C.Rel (.leaf t :: ps) (.leaf t :: qs) :=
  C.append (C.leaf t) h

theorem newline (hd : C.Depth d d') (h : C.Rel ps qs) :
    C.Rel (Piece.newline d ++ ps) (Piece.newline d' ++ qs) :=
  C.afterBreak (C.indent hd h)

/-- A fixed text at the start of a line. -/
theorem clause (hd : C.Depth d d') (w : String) (hw : IsFlat w) :
    C.Rel (Piece.newline d ++ [.mark w]) (Piece.newline d' ++ [.mark w]) :=
  newline hd (mark w hw nil)

theorem ite {p : Prop} [Decidable p] (h : C.Rel ps qs) (h' : C.Rel ps' qs') :
    C.Rel (if p then ps else ps') (if p then qs else qs') := by
  split
  · exact h
  · exact h'

theorem sepBy {separator separator' : List Piece} (hseparator : C.Rel separator separator')
    (h : List.Forall₂ C.Rel pss qss) :
    C.Rel (Piece.sepBy separator pss) (Piece.sepBy separator' qss) := by
  induction h with
  | nil => exact nil
  | cons hfirst hrest ih =>
    cases hrest with
    | nil => exact hfirst
    | cons hsecond hrest => exact (hfirst.append hseparator).append ih

theorem commas (h : List.Forall₂ C.Rel pss qss) : C.Rel (Piece.commas pss) (Piece.commas qss) :=
  sepBy (mark ", " (by decide) nil) h

/-- Texts of the tree, which stay. -/
theorem texts (ts : List String) :
    List.Forall₂ C.Rel (ts.map fun t => [.leaf t]) (ts.map fun t => [.leaf t]) := by
  rw [List.forall₂_map_left_iff, List.forall₂_map_right_iff]
  exact List.forall₂_same.2 fun t _ => C.leaf t

theorem leaves (separator : String) (h : IsFlat separator) (ts : List String) :
    C.Rel (Piece.leaves separator ts) (Piece.leaves separator ts) :=
  sepBy (mark separator h nil) (texts ts)

/-- Groups on lines of their own. -/
theorem lines (hd : C.Depth d d') (h : List.Forall₂ C.Rel pss qss) :
    C.Rel (Piece.sepBy [.mark ","] (pss.map (Piece.newline d ++ ·)))
      (Piece.sepBy [.mark ","] (qss.map (Piece.newline d' ++ ·))) := by
  refine sepBy (mark "," (by decide) nil) ?_
  rw [List.forall₂_map_left_iff, List.forall₂_map_right_iff]
  exact h.imp fun _ _ => newline hd

/-- A part that is left out when it has no item. -/
theorem items (hitems : List.Forall₂ C.Rel pss qss) (h : C.Rel ps qs) :
    C.Rel (if pss.isEmpty then [] else ps) (if qss.isEmpty then [] else qs) := by
  cases hitems with
  | nil => exact nil
  | cons => exact h

/-- A part of a list that is left out when it has no item. -/
theorem part (w : String) (hw : IsFlat w) (hitems : List.Forall₂ C.Rel pss qss) :
    List.Forall₂ C.Rel (if pss.isEmpty then [] else [[.mark w] ++ Piece.commas pss])
      (if qss.isEmpty then [] else [[.mark w] ++ Piece.commas qss]) := by
  have hwhole : C.Rel ([.mark w] ++ Piece.commas pss) ([.mark w] ++ Piece.commas qss) :=
    mark w hw (commas hitems)
  cases hitems with
  | nil => exact .nil
  | cons => exact .cons hwhole .nil

/-- Lines in parentheses. -/
theorem group {e e' : Nat} (hd : C.Depth d d') (opening : String) (hopening : IsFlat opening)
    (h : C.Line e e' ps qs) :
    C.Rel ([Piece.mark opening, Piece.lineBreak] ++ ps ++ Piece.newline d ++ [Piece.mark ")"])
      ([Piece.mark opening, Piece.lineBreak] ++ qs ++ Piece.newline d' ++ [Piece.mark ")"]) := by
  rw [List.append_assoc, List.append_assoc _ (Piece.newline d')]
  exact (mark opening hopening (C.afterBreak h)).append (clause hd ")" (by decide))

end Rel

namespace Line

theorem indent (hd : C.Depth d d') (h : C.Rel ps qs) :
    C.Line d d' (.indent d :: ps) (.indent d' :: qs) :=
  C.indent hd h

theorem append (h : C.Line d d' ps qs) (h' : C.Rel ps' qs') :
    C.Line d d' (ps ++ ps') (qs ++ qs') :=
  C.continued h h'

/-- A line after other ones. -/
theorem next (h : C.Line d d' ps qs) (h' : C.Line d d' ps' qs') :
    C.Line d d' (ps ++ [.lineBreak] ++ ps') (qs ++ [.lineBreak] ++ qs') := by
  rw [List.append_assoc, List.append_assoc]
  exact h.append (C.afterBreak h')

end Line

end Congruence

open Congruence (Rel Line)

/-! ### Parts without expressions -/

/-- A word that stands before something, or nothing. -/
theorem word_congr (w : String) (hw : IsFlat w) (present : Bool) :
    C.Rel (if present then [.mark w] else []) (if present then [.mark w] else []) :=
  .ite (.mark w hw .nil) .nil

theorem notMark_congr (negated : Bool) : C.Rel (notMark negated) (notMark negated) :=
  word_congr "NOT " (by decide) negated

theorem columnPieces_congr (fields : List String) (wildcard : Bool) :
    C.Rel (columnPieces fields wildcard) (columnPieces fields wildcard) := by
  cases fields with
  | nil => exact .mark "*" (by decide) .nil
  | cons w ws => exact (Rel.leaves "." (by decide) (w :: ws)).append (word_congr ".*" (by decide) wildcard)

theorem functionName_congr (name : List String) :
    C.Rel (functionName s name) (functionName s' name) := by
  unfold functionName
  split
  · exact .nil
  · rename_i last _
    refine .sepBy (.mark "." (by decide) .nil) ?_
    rw [List.map_append, List.map_append]
    exact List.rel_append (Rel.texts name.dropLast) (.cons (C.function last) .nil)

theorem aliasPieces_congr (name : Option String) : C.Rel (aliasPieces name) (aliasPieces name) := by
  cases name with
  | none => exact .nil
  | some a => exact .blank (.leaf a .nil)

theorem targetName_congr (name : Option String) :
    C.Rel
      (match name with
        | some n => [.mark " AS ", .leaf n]
        | none => [])
      (match name with
        | some n => [.mark " AS ", .leaf n]
        | none => []) := by
  cases name with
  | none => exact .nil
  | some n => exact .mark " AS " (by decide) (.leaf n .nil)

theorem tableName_congr (t : TableName) : C.Rel t.pieces t.pieces := by
  have hname : C.Rel ([.leaf t.name] ++ aliasPieces t.aliasName)
      ([.leaf t.name] ++ aliasPieces t.aliasName) :=
    .leaf t.name (aliasPieces_congr t.aliasName)
  unfold TableName.pieces
  cases t.schema with
  | none => exact hname
  | some schema => exact .leaf schema (.mark "." (by decide) hname)

theorem waiting_congr (waiting : Option Waiting) :
    C.Rel
      (match waiting with
        | some w => [.mark (" " ++ w.text)]
        | none => [])
      (match waiting with
        | some w => [.mark (" " ++ w.text)]
        | none => []) := by
  cases waiting with
  | none => exact .nil
  | some w => exact .mark _ (by cases w <;> decide) .nil

theorem locking_congr (l : Locking) : C.Rel l.pieces l.pieces := by
  obtain ⟨strength, of, waiting⟩ := l
  have hstrength : IsFlat strength.text := by cases strength <;> decide
  cases of with
  | none => exact .mark _ hstrength (waiting_congr waiting)
  | some t => exact .mark _ hstrength (.mark " OF " (by decide) (.leaf t (waiting_congr waiting)))

theorem lockings_congr (ls : List Locking) (hd : C.Depth d d') :
    C.Rel (ls.map fun l => newline d ++ l.pieces).flatten
      (ls.map fun l => newline d' ++ l.pieces).flatten := by
  induction ls with
  | nil => exact .nil
  | cons l r ih => exact (Rel.newline hd (locking_congr l)).append ih

theorem brackets_congr (n : Nat) :
    C.Rel (List.replicate n (.mark "[]")) (List.replicate n (.mark "[]")) := by
  induction n with
  | zero => exact .nil
  | succ n ih => exact .mark "[]" (by decide) ih

theorem frame_congr (frame : Option String) :
    List.Forall₂ C.Rel
      (match frame with
        | some f => [[.leaf f]]
        | none => [])
      (match frame with
        | some f => [[.leaf f]]
        | none => []) := by
  cases frame with
  | none => exact .nil
  | some f => exact .cons (.leaf f .nil) .nil

theorem direction_congr (y : Direction) : C.Rel [.mark y.text] [.mark y.text] :=
  .mark _ (by cases y <;> decide) .nil

theorem nulls_congr (y : Option Nulls) :
    C.Rel
      (match y with
        | some n => [.mark n.text]
        | none => [])
      (match y with
        | some n => [.mark n.text]
        | none => []) := by
  cases y with
  | none => exact .nil
  | some n => exact .mark _ (by cases n <;> decide) .nil

theorem sortClause_congr (lead closing : String) (hlead : IsFlat lead) (hclosing : IsFlat closing)
    (h : List.Forall₂ C.Rel pss qss) :
    C.Rel (sortClause lead [.mark ", "] pss closing) (sortClause lead [.mark ", "] qss closing) :=
  .items h ((Rel.mark lead hlead (.commas h)).append (.mark closing hclosing .nil))

/-! ### Expressions and queries -/

/-- A select has targets, unless a line may be left empty. -/
def Node.Fills (blank : Prop) : Node → Prop
  | .select y => blank ∨ y.targets ≠ []
  | _ => True

theorem Body.blank_of_isBlank {blank : Prop} {b : Body} (hb : b.isBlank)
    (h : ∀ n ∈ b.nodes, n.Fills blank) : blank := by
  cases b with
  | select y =>
    obtain ⟨distinct, targets, source, condition, groupBy, having⟩ := y
    have hfills : blank ∨ targets ≠ [] := h _ List.mem_cons_self
    have htargets : targets = [] := by simpa [Body.isBlank] using hb
    exact hfills.resolve_right fun hne => hne htargets
  | setOp | values | query => cases hb

/-- A chain of conditions, which stands in parentheses where it is an operand. -/
theorem group_congr {c : Connective} {args : List Expr} (isOperand : Bool) (hd : C.Depth d d')
    (h : ∀ {d d'}, C.Depth d d' → C.Rel (chainPieces s d c args) (chainPieces s' d' c args)) :
    C.Rel
      (if isOperand then
        [Piece.mark "(", Piece.lineBreak, Piece.indent (d + 1)] ++ chainPieces s (d + 1) c args ++
          newline d ++ [Piece.mark ")"]
      else chainPieces s d c args)
      (if isOperand then
        [Piece.mark "(", Piece.lineBreak, Piece.indent (d' + 1)] ++ chainPieces s' (d' + 1) c args ++
          newline d' ++ [Piece.mark ")"]
      else chainPieces s' d' c args) := by
  have hopen := Rel.mark (C := C) "(" (by decide) (.newline (C.succ hd) .nil)
  have hgroup := ((hopen.append (h (C.succ hd))).append (.newline hd .nil)).append .closing
  exact .ite hgroup (h hd)

mutual

theorem expr_congr : (e : Expr) → (isOperand : Bool) → {d d' : Nat} → C.Depth d d' →
    (∀ n ∈ e.nodes, n.Fills C.Blank) → C.Rel (e.pieces s d isOperand) (e.pieces s' d' isOperand)
  | .column fields wildcard, _, _, _, _, _ => columnPieces_congr fields wildcard
  | .keyword w, _, _, _, _, _ => C.leaf (Text.upper w)
  | .const c, _, _, _, _, _ => C.leaf c.text
  | .param n, _, _, _, _, _ => C.leaf ("$" ++ toString n)
  | .call c, _, _, _, hd, h => call_congr c hd h
  | .operation q op l r escape, _, _, _, hd, h => by
    simp only [Expr.nodes, List.forall_mem_cons, List.forall_mem_append] at h
    obtain ⟨-, ⟨hl, hr⟩, hescape⟩ := h
    have hopening : IsFlat q.opening := by cases q <;> decide
    have hclosing : IsFlat q.closing := by cases q <;> decide
    have hop : C.Rel [.mark " ", .leaf (operatorText op), .mark q.opening]
        [.mark " ", .leaf (operatorText op), .mark q.opening] :=
      .blank (.leaf _ (.mark _ hopening .nil))
    have hoperands := ((expr_congr l false hd hl).append hop).append (expr_congr r false hd hr)
    exact (hoperands.append (.mark _ hclosing .nil)).append
      (option_congr escape hd (.mark " ESCAPE " (by decide) .nil) hescape)
  | .logic .not args, _, _, _, hd, h => by
    simp only [Expr.nodes, List.forall_mem_cons] at h
    exact .mark "NOT " (by decide) (first_congr args hd h.2)
  | .logic .and args, isOperand, _, _, hd, h => by
    simp only [Expr.nodes, List.forall_mem_cons] at h
    exact group_congr isOperand hd fun hd => chain_congr .and args hd h.2
  | .logic .or args, isOperand, _, _, hd, h => by
    simp only [Expr.nodes, List.forall_mem_cons] at h
    exact group_congr isOperand hd fun hd => chain_congr .or args hd h.2
  | .nullTest e t, _, _, _, hd, h => by
    simp only [Expr.nodes, List.forall_mem_cons] at h
    exact (expr_congr e false hd h.2).append (.mark _ (by cases t <;> decide) .nil)
  | .truthTest e t, _, _, _, hd, h => by
    simp only [Expr.nodes, List.forall_mem_cons] at h
    exact (expr_congr e false hd h.2).append (.mark _ (by cases t <;> decide) .nil)
  | .cast e typeName bounds, _, _, _, hd, h => by
    simp only [Expr.nodes, List.forall_mem_cons] at h
    exact ((expr_congr e false hd h.2).append (.mark "::" (by decide) (.leaf typeName .nil))).append
      (brackets_congr bounds)
  | .caseOf arg whens default, _, _, _, hd, h => by
    simp only [Expr.nodes, List.forall_mem_cons, List.forall_mem_append] at h
    obtain ⟨-, ⟨harg, hwhens⟩, hdefault⟩ := h
    have harg := (Rel.mark "CASE" (by decide) .nil).append (option_congr arg hd (.blank .nil) harg)
    have hdefault := option_congr default hd (.mark " ELSE " (by decide) .nil) hdefault
    exact ((harg.append (when_congr whens hd hwhens)).append hdefault).append (.mark " END" (by decide) .nil)
  | .coalesce args, _, _, _, hd, h => by
    simp only [Expr.nodes, List.forall_mem_cons] at h
    exact (Rel.mark "COALESCE(" (by decide) (.commas (exprs_congr args hd h.2))).append .closing
  | .link kind test op negated q, d, _, _, hd, h => by
    simp only [Expr.nodes, List.forall_mem_cons, List.forall_mem_append] at h
    obtain ⟨-, htest, hq⟩ := h
    have hkind : IsFlat kind.opening := by cases kind <;> decide
    have htest := (test_congr test op hd htest).append (notMark_congr negated)
    have hquery := Rel.group hd kind.opening hkind (query_congr q (C.succ hd) hq)
    simpa [Expr.pieces] using htest.append hquery
  | .inList e list negated, _, _, _, hd, h => by
    simp only [Expr.nodes, List.forall_mem_cons, List.forall_mem_append] at h
    obtain ⟨-, he, hlist⟩ := h
    have htest := ((expr_congr e false hd he).append (.blank .nil)).append (notMark_congr negated)
    have hlist := Rel.commas (exprs_congr list hd hlist)
    exact ((htest.append (.mark "IN (" (by decide) .nil)).append hlist).append .closing
  | .between e low high negated, _, _, _, hd, h => by
    simp only [Expr.nodes, List.forall_mem_cons, List.forall_mem_append] at h
    obtain ⟨-, ⟨he, hlow⟩, hhigh⟩ := h
    have htest := ((expr_congr e false hd he).append (.blank .nil)).append (notMark_congr negated)
    exact (((htest.append (.mark "BETWEEN " (by decide) .nil)).append (expr_congr low false hd hlow)).append
      (.mark " AND " (by decide) .nil)).append (expr_congr high false hd hhigh)
  | .array es, _, _, _, hd, h => by
    simp only [Expr.nodes, List.forall_mem_cons] at h
    exact (Rel.mark "ARRAY[" (by decide) (.commas (exprs_congr es hd h.2))).append
      (.mark "]" (by decide) .nil)
  | .unary op e, _, _, _, hd, h => by
    simp only [Expr.nodes, List.forall_mem_cons] at h
    simpa [Expr.pieces] using (C.leaf op).append (C.signs (expr_congr e false hd h.2))
  | .nested e, _, _, _, hd, h => by
    simp only [Expr.nodes, List.forall_mem_cons] at h
    exact (Rel.mark "(" (by decide) (expr_congr e false hd h.2)).append .closing
  | .verbatim t, _, _, _, _, _ => C.leaf t

theorem first_congr : (args : List Expr) → {d d' : Nat} → C.Depth d d' →
    (∀ n ∈ exprNodes args, n.Fills C.Blank) → C.Rel (firstOperand s d args) (firstOperand s' d' args)
  | [], _, _, _, _ => .nil
  | e :: _, _, _, hd, h => by
    simp only [exprNodes, List.forall_mem_append] at h
    exact expr_congr e true hd h.1

theorem chain_congr (c : Connective) : (args : List Expr) → {d d' : Nat} → C.Depth d d' →
    (∀ n ∈ exprNodes args, n.Fills C.Blank) → C.Rel (chainPieces s d c args) (chainPieces s' d' c args)
  | [], _, _, _, _ => .nil
  | e :: r, _, _, hd, h => by
    simp only [exprNodes, List.forall_mem_append] at h
    exact (expr_congr e true hd h.1).append (chainRest_congr c r hd h.2)

theorem chainRest_congr (c : Connective) : (args : List Expr) → {d d' : Nat} → C.Depth d d' →
    (∀ n ∈ exprNodes args, n.Fills C.Blank) → C.Rel (chainRest s d c args) (chainRest s' d' c args)
  | [], _, _, _, _ => .nil
  | e :: r, _, _, hd, h => by
    simp only [exprNodes, List.forall_mem_append] at h
    have hc : IsFlat (c.text ++ " ") := by cases c <;> decide
    exact ((Rel.clause (C.succ hd) _ hc).append (expr_congr e true (C.succ hd) h.1)).append
      (chainRest_congr c r hd h.2)

theorem exprs_congr : (es : List Expr) → {d d' : Nat} → C.Depth d d' →
    (∀ n ∈ exprNodes es, n.Fills C.Blank) → List.Forall₂ C.Rel (exprPieces s d es) (exprPieces s' d' es)
  | [], _, _, _, _ => .nil
  | e :: r, _, _, hd, h => by
    simp only [exprNodes, List.forall_mem_append] at h
    exact .cons (expr_congr e false hd h.1) (exprs_congr r hd h.2)

theorem option_congr {lead lead' : List Piece} : (e : Option Expr) → {d d' : Nat} → C.Depth d d' →
    C.Rel lead lead' → (∀ n ∈ optionNodes e, n.Fills C.Blank) →
    C.Rel (optionPieces s d lead e) (optionPieces s' d' lead' e)
  | none, _, _, _, _, _ => .nil
  | some e, _, _, hd, hlead, h => hlead.append (expr_congr e false hd h)

theorem test_congr : (test : Option Expr) → (op : Option String) → {d d' : Nat} → C.Depth d d' →
    (∀ n ∈ optionNodes test, n.Fills C.Blank) →
    C.Rel (testPieces s d op test) (testPieces s' d' op test)
  | none, _, _, _, _, _ => .nil
  | some e, none, _, _, hd, h => ((expr_congr e false hd h).append (.blank .nil)).append .nil
  | some e, some o, _, _, hd, h =>
    ((expr_congr e false hd h).append (.blank .nil)).append (.leaf o (.blank .nil))

theorem when_congr : (ws : List When) → {d d' : Nat} → C.Depth d d' →
    (∀ n ∈ whenNodes ws, n.Fills C.Blank) → C.Rel (whenPieces s d ws) (whenPieces s' d' ws)
  | [], _, _, _, _ => .nil
  | ⟨c, r⟩ :: ws, _, _, hd, h => by
    simp only [whenNodes, List.forall_mem_append] at h
    obtain ⟨⟨hc, hr⟩, hws⟩ := h
    have hwhen := (Rel.mark " WHEN " (by decide) (expr_congr c false hd hc)).append
      (.mark " THEN " (by decide) .nil)
    exact (hwhen.append (expr_congr r false hd hr)).append (when_congr ws hd hws)

theorem call_congr : (c : Call) → {d d' : Nat} → C.Depth d d' → (∀ n ∈ c.nodes, n.Fills C.Blank) →
    C.Rel (c.pieces s d) (c.pieces s' d')
  | ⟨name, args, distinct, star, orderBy, withinGroup, filter, window⟩, _, _, hd, h => by
    simp only [Call.nodes, List.forall_mem_cons, List.forall_mem_append] at h
    obtain ⟨-, ⟨⟨⟨hargs, horder⟩, hwithin⟩, hfilter⟩, hwindow⟩ := h
    have hname := (functionName_congr (C := C) name).append (.mark "(" (by decide) .nil)
    have hdistinct := hname.append (word_congr "DISTINCT " (by decide) distinct)
    have hargs := hdistinct.append
      (.ite (p := star) (.mark "*" (by decide) .nil) (.commas (args_congr args hd hargs)))
    have horder := hargs.append
      (sortClause_congr " ORDER BY " "" (by decide) (by decide) (sort_congr orderBy hd horder))
    have hwithin := (horder.append .closing).append
      (sortClause_congr " WITHIN GROUP (ORDER BY " ")" (by decide) (by decide)
        (sort_congr withinGroup hd hwithin))
    exact (hwithin.append (filter_congr filter hd hfilter)).append (window_congr window hd hwindow)

theorem filter_congr : (filter : Option Expr) → {d d' : Nat} → C.Depth d d' →
    (∀ n ∈ optionNodes filter, n.Fills C.Blank) →
    C.Rel (filterPieces s d filter) (filterPieces s' d' filter)
  | none, _, _, _, _ => .nil
  | some e, _, _, hd, h =>
    (Rel.mark " FILTER (WHERE " (by decide) (expr_congr e false hd h)).append .closing

theorem args_congr : (args : List Arg) → {d d' : Nat} → C.Depth d d' →
    (∀ n ∈ argNodes args, n.Fills C.Blank) → List.Forall₂ C.Rel (argPieces s d args) (argPieces s' d' args)
  | [], _, _, _, _ => .nil
  | .positional e :: r, _, _, hd, h => by
    simp only [argNodes, List.forall_mem_append] at h
    exact .cons (expr_congr e false hd h.1) (args_congr r hd h.2)
  | .named name sign e :: r, _, _, hd, h => by
    simp only [argNodes, List.forall_mem_append] at h
    have he := expr_congr e false hd h.1
    exact .cons (.leaf name (.blank (.leaf sign (.blank he)))) (args_congr r hd h.2)

theorem sort_congr : (items : List SortItem) → {d d' : Nat} → C.Depth d d' →
    (∀ n ∈ sortNodes items, n.Fills C.Blank) →
    List.Forall₂ C.Rel (sortPieces s d items) (sortPieces s' d' items)
  | [], _, _, _, _ => .nil
  | ⟨e, direction, nulls⟩ :: r, _, _, hd, h => by
    simp only [sortNodes, List.forall_mem_append] at h
    have hitem := ((expr_congr e false hd h.1).append (direction_congr direction)).append
      (nulls_congr nulls)
    exact .cons hitem (sort_congr r hd h.2)

theorem window_congr : (w : Option Window) → {d d' : Nat} → C.Depth d d' →
    (∀ n ∈ windowNodes w, n.Fills C.Blank) → C.Rel (windowPieces s d w) (windowPieces s' d' w)
  | none, _, _, _, _ => .nil
  | some ⟨partitionBy, orderBy, frame⟩, _, _, hd, h => by
    simp only [windowNodes, List.forall_mem_append] at h
    have hpartition := Rel.part "PARTITION BY " (by decide) (exprs_congr partitionBy hd h.1)
    have horder := Rel.part "ORDER BY " (by decide) (sort_congr orderBy hd h.2)
    have hparts := List.rel_append (List.rel_append hpartition horder) (frame_congr frame)
    exact ((Rel.mark " OVER(" (by decide) .nil).append (.sepBy (.blank .nil) hparts)).append .closing

theorem query_congr : (q : Query) → {d d' : Nat} → C.Depth d d' → (∀ n ∈ q.nodes, n.Fills C.Blank) →
    C.Line d d' (q.pieces s d) (q.pieces s' d')
  | ⟨withClause, body, orderBy, limit, offset, locking⟩, d, d', hd, h => by
    simp only [Query.nodes, List.forall_mem_append] at h
    obtain ⟨⟨⟨⟨hwith, hbody⟩, horder⟩, hlimit⟩, hoffset⟩ := h
    have hseparator : C.Rel (.mark "," :: newline (d + 1)) (.mark "," :: newline (d' + 1)) :=
      .mark "," (by decide) (.newline (C.succ hd) .nil)
    have hsort := sort_congr orderBy hd horder
    have horder := Rel.items hsort ((Rel.clause hd "ORDER BY " (by decide)).append (.sepBy hseparator hsort))
    have hlead := (with_congr withClause hd hwith (body_congr body hd hbody)).append horder
    have hlimit := hlead.append (option_congr limit hd (.clause hd "LIMIT " (by decide)) hlimit)
    have hoffset := hlimit.append (option_congr offset hd (.clause hd "OFFSET " (by decide)) hoffset)
    simp only [Query.pieces]
    rw [body_isEmpty, body_isEmpty]
    split
    · exact C.empty (Body.blank_of_isBlank ‹_› hbody)
    · exact hoffset.append (lockings_congr locking hd)

/-- A query after its named queries. -/
theorem with_congr : (w : Option With) → {d d' : Nat} → {ps qs : List Piece} → C.Depth d d' →
    (∀ n ∈ withNodes w, n.Fills C.Blank) → C.Line d d' ps qs →
    C.Line d d' (withPieces s d w ++ ps) (withPieces s' d' w ++ qs)
  | none, _, _, _, _, _, _, hbody => hbody
  | some ⟨isRecursive, ctes⟩, _, _, _, _, hd, h, hbody => by
    have hwith := Line.indent (C := C) hd (.mark "WITH " (by decide) .nil)
    exact ((hwith.append (word_congr "RECURSIVE " (by decide) isRecursive)).append
      (.commas (ctes_congr ctes hd h))).next hbody

theorem ctes_congr : (cs : List Cte) → {d d' : Nat} → C.Depth d d' →
    (∀ n ∈ cteNodes cs, n.Fills C.Blank) → List.Forall₂ C.Rel (ctePieces s d cs) (ctePieces s' d' cs)
  | [], _, _, _, _ => .nil
  | ⟨name, materialized, q⟩ :: r, _, _, hd, h => by
    simp only [cteNodes, List.forall_mem_append] at h
    have hquery := Rel.group hd "(" (by decide) (query_congr q (C.succ hd) h.1)
    refine .cons ?_ (ctes_congr r hd h.2)
    cases materialized with
    | none => simpa using Rel.leaf name (.mark " AS " (by decide) hquery)
    | some m => simpa using Rel.leaf name (.mark " AS " (by decide) (.leaf m (.blank hquery)))

theorem body_congr : (b : Body) → {d d' : Nat} → C.Depth d d' → (∀ n ∈ b.nodes, n.Fills C.Blank) →
    C.Line d d' (b.pieces s d) (b.pieces s' d')
  | .select y, _, _, hd, h => select_congr y hd h
  | .setOp op all l r, _, _, hd, h => by
    simp only [Body.nodes, List.forall_mem_append] at h
    have hop : IsFlat (op.text ++ if all then " ALL" else "") := by cases op <;> cases all <;> decide
    have hleft := ((body_congr l hd h.1).append (.newline hd .nil)).append (.mark _ hop .nil)
    simpa [Body.pieces] using hleft.next (body_congr r hd h.2)
  | .values rows, _, _, hd, h => .indent hd (.mark "VALUES " (by decide) (.commas (rows_congr rows hd h)))
  | .query q, _, _, hd, h => .indent hd (.group hd "(" (by decide) (query_congr q (C.succ hd) h))

theorem rows_congr : (rows : List (List Expr)) → {d d' : Nat} → C.Depth d d' →
    (∀ n ∈ rowNodes rows, n.Fills C.Blank) → List.Forall₂ C.Rel (rowPieces s d rows) (rowPieces s' d' rows)
  | [], _, _, _, _ => .nil
  | es :: r, _, _, hd, h => by
    simp only [rowNodes, List.forall_mem_append] at h
    have hrow := Rel.lines (C.succ hd) (exprs_congr es (C.succ hd) h.1)
    have hopen := (Rel.mark "(" (by decide) .nil).append hrow
    exact .cons ((hopen.append (.newline hd .nil)).append .closing) (rows_congr r hd h.2)

theorem select_congr : (y : Select) → {d d' : Nat} → C.Depth d d' → (∀ n ∈ y.nodes, n.Fills C.Blank) →
    C.Line d d' (y.pieces s d) (y.pieces s' d')
  | ⟨distinct, targets, source, condition, groupBy, having⟩, _, _, hd, h => by
    simp only [Select.nodes, List.forall_mem_cons, List.forall_mem_append] at h
    obtain ⟨hfills, ⟨⟨⟨⟨hdistinct, htargets⟩, hsource⟩, hcondition⟩, hgroups⟩, hhaving⟩ := h
    have hfrom := from_congr source hd hsource
    have hgroupBy := exprs_congr groupBy hd hgroups
    have hselect := (Line.indent (C := C) hd (.mark "SELECT" (by decide) .nil)).append
      (distinct_congr distinct hd hdistinct)
    have hlist := hselect.append
      (.lines (C.succ hd) (targets_congr targets (C.succ hd) htargets))
    have hsource := hlist.append (.items hfrom ((Rel.clause hd "FROM " (by decide)).append (.commas hfrom)))
    have hwhere := hsource.append (option_congr condition hd (.clause hd "WHERE " (by decide)) hcondition)
    have hgroup := hwhere.append
      (.items hgroupBy ((Rel.clause hd "GROUP BY " (by decide)).append (.commas hgroupBy)))
    have hwhole := hgroup.append (option_congr having hd (.clause hd "HAVING " (by decide)) hhaving)
    simp only [Select.pieces]
    rw [targetPieces_isEmpty, targetPieces_isEmpty]
    split
    · rename_i hnone
      exact C.empty (hfills.resolve_right fun hne => hne (List.isEmpty_iff.1 hnone))
    · exact hwhole

theorem distinct_congr : (y : Option Distinct) → {d d' : Nat} → C.Depth d d' →
    (∀ n ∈ distinctNodes y, n.Fills C.Blank) → C.Rel (distinctPieces s d y) (distinctPieces s' d' y)
  | none, _, _, _, _ => .nil
  | some .rows, _, _, _, _ => .mark " DISTINCT" (by decide) .nil
  | some (.on es), _, _, hd, h =>
    (Rel.mark " DISTINCT ON (" (by decide) (.commas (exprs_congr es hd h))).append .closing

theorem targets_congr : (ts : List Target) → {d d' : Nat} → C.Depth d d' →
    (∀ n ∈ targetNodes ts, n.Fills C.Blank) →
    List.Forall₂ C.Rel (targetPieces s d ts) (targetPieces s' d' ts)
  | [], _, _, _, _ => .nil
  | ⟨e, name⟩ :: r, _, _, hd, h => by
    simp only [targetNodes, List.forall_mem_append] at h
    exact .cons ((expr_congr e false hd h.1).append (targetName_congr name)) (targets_congr r hd h.2)

theorem from_congr : (fs : List FromItem) → {d d' : Nat} → C.Depth d d' →
    (∀ n ∈ fromNodes fs, n.Fills C.Blank) → List.Forall₂ C.Rel (fromPieces s d fs) (fromPieces s' d' fs)
  | [], _, _, _, _ => .nil
  | f :: r, _, _, hd, h => by
    simp only [fromNodes, List.forall_mem_append] at h
    exact .cons (fromItem_congr f hd h.1) (from_congr r hd h.2)

theorem fromItem_congr : (f : FromItem) → {d d' : Nat} → C.Depth d d' → (∀ n ∈ f.nodes, n.Fills C.Blank) →
    C.Rel (f.pieces s d) (f.pieces s' d')
  | .table t, _, _, _, _ => tableName_congr t
  | .function isLateral call name, _, _, hd, h =>
    ((word_congr "LATERAL " (by decide) isLateral).append (call_congr call hd h)).append
      (aliasPieces_congr name)
  | .subquery isLateral q name, _, _, hd, h => by
    have hquery := Rel.group hd "(" (by decide) (query_congr q (C.succ hd) h)
    have hlateral := (word_congr "LATERAL " (by decide) isLateral).append hquery
    simpa [FromItem.pieces] using hlateral.append (aliasPieces_congr name)
  | .join kind natural l r condition, d, d', hd, h => by
    simp only [FromItem.nodes, List.forall_mem_append] at h
    obtain ⟨⟨hl, hr⟩, hcondition⟩ := h
    have hkind : IsFlat (kind.text ++ " ") := by cases kind <;> decide
    have hjoin := C.join hd
    have hleft := (fromItem_congr l hd hl).append (.newline hjoin .nil)
    have hkeyword := (hleft.append (word_congr "NATURAL " (by decide) natural)).append (.mark _ hkind .nil)
    exact (hkeyword.append (fromItem_congr r hjoin hr)).append
      (joinCondition_congr condition hjoin hcondition)
  | .verbatim t, _, _, _, _ => C.leaf t

theorem joinCondition_congr : (c : JoinCondition) → {d d' : Nat} → C.Depth d d' →
    (∀ n ∈ c.nodes, n.Fills C.Blank) → C.Rel (c.pieces s d) (c.pieces s' d')
  | .on e, _, _, hd, h => C.on (fun hd => expr_congr e false hd h) hd
  | .byColumns cs, _, _, _, _ =>
    (Rel.mark " USING(" (by decide) (.leaves ", " (by decide) cs)).append .closing
  | .none, _, _, _, _ => .nil

end

/-! ### Statements -/

namespace Congruence

/-- What a relation needs to hold of whole statements, which stand at the left. -/
structure AtLeft (C : Congruence s s') : Prop where
  blank : C.Blank
  depth : C.Depth 0 0
  start {ps qs : List Piece} : C.Line 0 0 ps qs → C.Rel ps qs

theorem conflictTarget_congr (target : Option ConflictTarget) :
    C.Rel
      (match target with
        | some t => t.pieces
        | none => [])
      (match target with
        | some t => t.pieces
        | none => []) := by
  match target with
  | none => exact .nil
  | some (.columns cs) => exact (Rel.mark "(" (by decide) (.leaves ", " (by decide) cs)).append .closing
  | some (.onConstraint n) => exact .mark " ON CONSTRAINT " (by decide) (.leaf n .nil)

namespace AtLeft

variable (h : C.AtLeft)

include h

theorem fills (ns : List Node) : ∀ n ∈ ns, n.Fills C.Blank := by
  rintro (_ | _ | _) _
  · trivial
  · trivial
  · exact .inl h.blank

theorem where_congr (condition : Option Expr) :
    C.Rel (wherePieces s condition) (wherePieces s' condition) :=
  option_congr condition h.depth (.clause h.depth "WHERE " (by decide)) (h.fills _)

theorem returning_congr (ts : List Target) :
    C.Rel (returningPieces s ts) (returningPieces s' ts) := by
  have htargets := targets_congr ts h.depth (h.fills _)
  exact .ite .nil ((Rel.clause h.depth "RETURNING " (by decide)).append (.commas htargets))

theorem assignments_congr (as : List Assignment) :
    C.Rel (assignmentPieces s as) (assignmentPieces s' as) := by
  refine .sepBy (.mark "," (by decide) .nil) ?_
  rw [List.forall₂_map_left_iff, List.forall₂_map_right_iff]
  refine List.forall₂_same.2 fun a _ => ?_
  have hvalue := expr_congr a.value false (C.succ h.depth) (h.fills _)
  exact .newline (C.succ h.depth) (.leaf a.target (.mark " = " (by decide) hvalue))

theorem conflictAction_congr (action : ConflictAction) :
    C.Rel (action.pieces s) (action.pieces s') := by
  cases action with
  | nothing => exact .clause h.depth "DO NOTHING" (by decide)
  | update as condition =>
    exact ((Rel.clause h.depth "DO UPDATE SET" (by decide)).append (h.assignments_congr as)).append
      (h.where_congr condition)

theorem conflictClause_congr (c : Option OnConflict) :
    C.Rel
      (match c with
        | some c => c.pieces s
        | none => [])
      (match c with
        | some c => c.pieces s'
        | none => []) := by
  cases c with
  | none => exact .nil
  | some c =>
    exact ((Rel.clause h.depth "ON CONFLICT" (by decide)).append (conflictTarget_congr c.target)).append
      (h.conflictAction_congr c.action)

theorem mainQuery_congr (q : Query) : C.Rel (q.pieces s 0) (q.pieces s' 0) :=
  h.start (query_congr q h.depth (h.fills _))

theorem insertSource_congr (y : InsertSource) : C.Rel (y.pieces s) (y.pieces s') := by
  cases y with
  | values rows => exact .mark "VALUES " (by decide) (.commas (rows_congr rows h.depth (h.fills _)))
  | query q => exact h.mainQuery_congr q
  | defaultValues => exact .mark "DEFAULT VALUES" (by decide) .nil

/-- The columns of an insertion, or a line break where there is none. -/
theorem insertColumns_congr (cs : List String) :
    C.Rel
      (if cs.isEmpty then newline 0
        else [Piece.mark "("] ++ sepBy [Piece.mark ","] (cs.map fun c => newline 1 ++ [Piece.leaf c]) ++
          newline 0 ++ [Piece.mark ") "])
      (if cs.isEmpty then newline 0
        else [Piece.mark "("] ++ sepBy [Piece.mark ","] (cs.map fun c => newline 1 ++ [Piece.leaf c]) ++
          newline 0 ++ [Piece.mark ") "]) := by
  have hcolumns : List.Forall₂ C.Rel (cs.map fun c => newline 1 ++ [Piece.leaf c])
      (cs.map fun c => newline 1 ++ [Piece.leaf c]) := by
    rw [List.forall₂_map_left_iff, List.forall₂_map_right_iff]
    exact List.forall₂_same.2 fun c _ => .newline (C.succ h.depth) (.leaf c .nil)
  have hopen := Rel.mark "(" (by decide) (.sepBy (.mark "," (by decide) .nil) hcolumns)
  exact .ite (.newline h.depth .nil)
    ((hopen.append (.newline h.depth .nil)).append (.mark ") " (by decide) .nil))

theorem insert_congr (i : Insert) : C.Rel (i.pieces s) (i.pieces s') := by
  have htable : C.Rel [.mark "INSERT INTO ", .leaf i.table] [.mark "INSERT INTO ", .leaf i.table] :=
    .mark "INSERT INTO " (by decide) (.leaf i.table .nil)
  have hcolumns := (htable.append (targetName_congr i.aliasName)).append
    (h.insertColumns_congr i.columns)
  exact ((hcolumns.append (h.insertSource_congr i.source)).append
    (h.conflictClause_congr i.onConflict)).append (h.returning_congr i.returning)

theorem update_congr (u : Update) : C.Rel (u.pieces s) (u.pieces s') := by
  have htable : C.Rel ([Piece.mark "UPDATE "] ++ u.table.pieces)
      ([Piece.mark "UPDATE "] ++ u.table.pieces) :=
    .mark "UPDATE " (by decide) (tableName_congr u.table)
  have hset := (htable.append (.newline h.depth .nil)).append (.mark "SET" (by decide) .nil)
  exact ((hset.append (h.assignments_congr u.assignments)).append
    (h.where_congr u.condition)).append (h.returning_congr u.returning)

theorem delete_congr (y : Delete) : C.Rel (y.pieces s) (y.pieces s') := by
  have htable := Rel.mark (C := C) "DELETE FROM " (by decide) (tableName_congr y.table)
  exact (htable.append (h.where_congr y.condition)).append (h.returning_congr y.returning)

theorem statement_congr (t : Statement) : C.Rel (t.pieces s) (t.pieces s') := by
  cases t with
  | select q => exact h.mainQuery_congr q
  | insert i => exact h.insert_congr i
  | update u => exact h.update_congr u
  | delete y => exact h.delete_congr y

end AtLeft

end Congruence

end SqlLayout.Layout
