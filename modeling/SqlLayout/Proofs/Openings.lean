import SqlLayout.Proofs.Indentation
import SqlLayout.Proofs.Queries
import SqlLayout.Proofs.SetOperations
import SqlLayout.Proofs.Soundness

/-!
The queries in a layout. A query opens with a keyword or a parenthesis unless the select that it starts
with has no targets, which leaves nothing of that select. Where all selects have targets, each query of
a statement stands in its layout.
-/

namespace SqlLayout.Layout

variable {s : Style} {d : Nat} {text text' : String}

/-! ### Openings -/

/-- What a query may open with. -/
def openings : List String :=
  ["SELECT", "VALUES", "WITH", "("]

/-- The text opens a query on a line at the given depth. -/
def Opens (s : Style) (d : Nat) (text : String) : Prop :=
  ∃ w ∈ openings, (s.indentBy d ++ w).toList <+: text.toList

theorem Opens.append (h : Opens s d text) (text' : String) : Opens s d (text ++ text') := by
  obtain ⟨w, hw, hstart⟩ := h
  refine ⟨w, hw, hstart.trans ?_⟩
  rw [String.toList_append]
  exact List.prefix_append _ _

/-- A line that starts with one of the openings. -/
theorem opens_line {w t : String} (hw : w ∈ openings) (ht : w.toList <+: t.toList) (ps : List Piece) :
    Opens s d (Piece.textOf s (.indent d :: .mark t :: ps)) := by
  have hopens : Opens s d (s.indentBy d ++ t) := by
    refine ⟨w, hw, ?_⟩
    rw [String.toList_append, String.toList_append]
    exact (List.prefix_append_right_inj _).2 ht
  rw [Piece.textOf_cons, Piece.textOf_cons, ← String.append_assoc]
  exact hopens.append _

theorem not_opens_empty : ¬ Opens s d "" := by
  rintro ⟨w, hw, hstart⟩
  rw [String.toList_empty, List.prefix_nil, String.toList_eq_nil_iff, String.append_eq_empty_iff] at hstart
  rw [hstart.2] at hw
  exact absurd hw (by decide)

/-- No line break stands in front of an opening. -/
theorem not_opens_lineBreak (text : String) : ¬ Opens s d ("\n" ++ text) := by
  have hunit : '\n' ∉ s.indent.text.toList := by
    cases s.indent <;> decide
  have hindent : '\n' ∉ (s.indentBy d).toList := by
    unfold Style.indentBy
    induction d with
    | zero => simp [Text.replicate]
    | succ d ih => simp [Text.replicate, hunit, ih]
  have hwords : ∀ w ∈ openings, '\n' ∉ w.toList ∧ w.toList ≠ [] := by decide
  rintro ⟨w, hw, hstart⟩
  obtain ⟨hword, hne⟩ := hwords w hw
  rw [String.toList_append, String.toList_append] at hstart
  obtain ⟨c, r, hcr⟩ := List.exists_cons_of_ne_nil (List.append_ne_nil_of_right_ne_nil _ hne)
  rw [hcr] at hstart
  have hbreak : c = '\n' := (List.cons_prefix_cons.1 hstart).1
  have hmem : '\n' ∈ (s.indentBy d).toList ++ w.toList := by
    rw [hcr, hbreak]
    exact List.mem_cons_self
  exact (List.mem_append.1 hmem).elim hindent hword

namespace Body

variable {b : Body}

theorem pieces_eq_nil (h : b.isBlank) : b.pieces s d = [] :=
  List.isEmpty_iff.1 ((body_isEmpty s d b).trans h)

/-- What is left of an operand opens. -/
theorem IsOperand.opens (hb : b.IsOperand) (h : b.isBlank = false) :
    Opens s d (Piece.textOf s (b.pieces s d)) := by
  cases b with
  | setOp => cases hb
  | select x =>
    obtain ⟨distinct, targets, source, condition, groupBy, having⟩ := x
    have htargets : (targetPieces s (d + 1) targets).isEmpty = false :=
      (targetPieces_isEmpty s (d + 1) targets).trans h
    simp only [pieces, Select.pieces, htargets, List.append_assoc, List.cons_append, Bool.false_eq_true,
      if_false]
    exact opens_line (w := "SELECT") (by decide) (by decide) _
  | values rows =>
    rw [pieces, List.cons_append, List.cons_append]
    exact opens_line (w := "VALUES") (by decide) (by decide) _
  | query q =>
    simp only [pieces, List.append_assoc, List.cons_append]
    exact opens_line (w := "(") (by decide) (by decide) _

theorem first_isBlank (h : b.isBlank) : b.first.isBlank := by
  cases b with
  | select x => exact h
  | setOp | values | query => cases h

/-- A body opens with its first operand. Where that one leaves nothing, either nothing is left of the
body or its text starts with the line break before an operator. -/
theorem opens_cases (s : Style) (d : Nat) (b : Body) :
    b.isBlank ∧ b.pieces s d = [] ∨
      b.first.isBlank = false ∧ Opens s d (Piece.textOf s (b.pieces s d)) ∨
      b.isBlank = false ∧ b.first.isBlank ∧ ∃ text, Piece.textOf s (b.pieces s d) = "\n" ++ text := by
  cases hfirst : b.first.isBlank with
  | false =>
    rw [textOf_sequence]
    exact .inr (.inl ⟨rfl, (b.first_isOperand.opens hfirst).append _⟩)
  | true =>
    have hnone : Piece.textOf s (b.first.pieces s d) = "" := by
      rw [pieces_eq_nil hfirst]
      rfl
    rw [textOf_sequence, hnone, String.empty_append]
    induction b using operandInduction with
    | operand b hb =>
      rw [hb.first_eq] at hfirst
      exact .inl ⟨hfirst, pieces_eq_nil hfirst⟩
    | setOp op all l r =>
      obtain ⟨x, xs, hrest⟩ := List.exists_cons_of_ne_nil (l := (setOp op all l r).rest) (by simp [rest])
      refine .inr (.inr ⟨rfl, rfl, ?_⟩)
      simp only [hrest, List.map_cons, String.join_cons, Step.text, Style.newline, String.append_assoc]
      exact ⟨_, rfl⟩

theorem opens_iff (s : Style) (d : Nat) (b : Body) :
    Opens s d (Piece.textOf s (b.pieces s d)) ↔ b.first.isBlank = false := by
  obtain ⟨hblank, hnone⟩ | ⟨hfirst, hopens⟩ | ⟨-, hfirst, text, htext⟩ := b.opens_cases s d
  · rw [hnone, first_isBlank hblank]
    exact iff_of_false not_opens_empty (by decide)
  · exact iff_of_true hopens hfirst
  · rw [htext, hfirst]
    exact iff_of_false (not_opens_lineBreak text) (by decide)

end Body

namespace Query

variable {q : Query}

theorem pieces_eq_nil (h : q.body.isBlank) : q.pieces s d = [] := by
  obtain ⟨withClause, body, orderBy, limit, offset, locking⟩ := q
  rw [pieces]
  exact if_pos ((body_isEmpty s d body).trans h)

/-- The clauses around a body do not stand without it. -/
theorem exists_pieces_eq (s : Style) (d : Nat) (h : q.body.isBlank = false) :
    ∃ ps, q.pieces s d = withPieces s d q.withClause ++ (q.body.pieces s d ++ ps) := by
  obtain ⟨withClause, body, orderBy, limit, offset, locking⟩ := q
  have hbody : (body.pieces s d).isEmpty = false := (body_isEmpty s d body).trans h
  simp only [pieces, hbody, Bool.false_eq_true, if_false, List.append_assoc]
  exact ⟨_, rfl⟩

/-- A query opens with its named queries, or with its body if it has none. -/
theorem opens_cases (s : Style) (d : Nat) (q : Query) :
    q.body.isBlank ∧ q.pieces s d = [] ∨
      (q.body.first.isBlank = false ∨ q.withClause.isSome ∧ q.body.isBlank = false) ∧
        Opens s d (Piece.textOf s (q.pieces s d)) ∨
      q.body.isBlank = false ∧ q.body.first.isBlank ∧ q.withClause = none ∧
        ∃ text, Piece.textOf s (q.pieces s d) = "\n" ++ text := by
  cases hblank : q.body.isBlank with
  | true => exact .inl ⟨rfl, pieces_eq_nil hblank⟩
  | false =>
    refine .inr ?_
    obtain ⟨ps, hps⟩ := q.exists_pieces_eq s d hblank
    rw [hps]
    cases hwith : q.withClause with
    | some w =>
      refine .inl ⟨.inr ⟨rfl, rfl⟩, ?_⟩
      obtain ⟨isRecursive, ctes⟩ := w
      simp only [withPieces, With.pieces, List.append_assoc, List.cons_append]
      exact opens_line (w := "WITH") (by decide) (by decide) _
    | none =>
      rw [withPieces, List.nil_append, Piece.textOf_append]
      obtain ⟨hbody, -⟩ | ⟨hfirst, hopens⟩ | ⟨-, hfirst, text, htext⟩ := q.body.opens_cases s d
      · rw [hblank] at hbody
        cases hbody
      · exact .inl ⟨.inl hfirst, hopens.append _⟩
      · exact .inr ⟨rfl, hfirst, rfl, _, by rw [htext, String.append_assoc]⟩

theorem opens_iff (s : Style) (d : Nat) (q : Query) :
    Opens s d (Piece.textOf s (q.pieces s d)) ↔
      q.body.first.isBlank = false ∨ q.withClause.isSome ∧ q.body.isBlank = false := by
  obtain ⟨hblank, hnone⟩ | ⟨hcase, hopens⟩ | ⟨-, hfirst, hwith, text, htext⟩ := q.opens_cases s d
  · rw [hnone, hblank, Body.first_isBlank hblank]
    exact iff_of_false not_opens_empty (by simp)
  · exact iff_of_true hopens hcase
  · rw [htext, hfirst, hwith]
    exact iff_of_false (not_opens_lineBreak text) (by simp)

/-- Nothing is left of a query whose body leaves nothing, and of no other one. -/
theorem textOf_eq_empty_iff (s : Style) (d : Nat) (q : Query) :
    Piece.textOf s (q.pieces s d) = "" ↔ q.body.isBlank := by
  obtain ⟨hblank, hnone⟩ | ⟨hcase, hopens⟩ | ⟨hblank, -, -, text, htext⟩ := q.opens_cases s d
  · rw [hnone]
    exact iff_of_true rfl hblank
  · refine iff_of_false (fun h => not_opens_empty (h ▸ hopens)) fun hblank => ?_
    obtain hfirst | ⟨-, hbody⟩ := hcase
    · rw [Body.first_isBlank hblank] at hfirst
      cases hfirst
    · rw [hblank] at hbody
      cases hbody
  · rw [htext, hblank, String.append_eq_empty_iff]
    exact iff_of_false (fun h => absurd h.1 (by decide)) (by decide)

end Query

/-! ### Queries in a layout -/

/-- The layout of a plain query stands in the text of the pieces. -/
structure Stands (s : Style) (q : Query) (ps : List Piece) : Prop where
  plain : ∀ n ∈ q.nodes, n.IsPlain
  text : ∃ d, (Piece.textOf s (q.pieces s d)).toList <:+: (Piece.textOf s ps).toList

/-- The layouts of the queries stand in the pieces, if the nodes around them are plain. -/
def Shows (s : Style) (ns : List Node) (ps : List Piece) (qs : List Query) : Prop :=
  (∀ n ∈ ns, n.IsPlain) → ∀ q ∈ qs, Stands s q ps

/-- Each layout stands in one of the groups of pieces. -/
def ShowsIn (s : Style) (ns : List Node) (pss : List (List Piece)) (qs : List Query) : Prop :=
  (∀ n ∈ ns, n.IsPlain) → ∀ q ∈ qs, ∃ ps ∈ pss, Stands s q ps

section

variable {ns ns' : List Node} {ps ps' ts : List Piece} {pss pss' : List (List Piece)} {qs qs' : List Query}

theorem infix_textOf (s : Style) (h : ps <:+: ps') :
    (Piece.textOf s ps).toList <:+: (Piece.textOf s ps').toList := by
  obtain ⟨front, back, rfl⟩ := h
  rw [Piece.textOf_append, Piece.textOf_append, String.toList_append, String.toList_append]
  exact ⟨_, _, rfl⟩

theorem infix_sepBy (sep : List Piece) (h : ps ∈ pss) : ps <:+: Piece.sepBy sep pss := by
  induction pss with
  | nil => cases h
  | cons ps' r ih =>
    cases r with
    | nil =>
      rw [List.mem_singleton.1 h]
      exact List.infix_rfl
    | cons ps'' r =>
      rw [Piece.sepBy]
      obtain rfl | h := List.mem_cons.1 h
      · rw [List.append_assoc]
        exact (List.prefix_append _ _).isInfix
      · exact (ih h).trans (List.suffix_append _ _).isInfix

theorem Stands.mono {q : Query} (h : Stands s q ps) (hps : ps <:+: ps') : Stands s q ps' :=
  ⟨h.plain, h.text.imp fun _ hd => hd.trans (infix_textOf s hps)⟩

namespace Shows

theorem nil (ns : List Node) (ps : List Piece) : Shows s ns ps [] :=
  fun _ _ h => nomatch h

theorem node (n : Node) (h : Shows s ns ps qs) : Shows s (n :: ns) ps qs :=
  fun hplain => h (List.forall_mem_cons.1 hplain).2

theorem mono (h : Shows s ns ps qs) (hps : ps <:+: ps') : Shows s ns ps' qs :=
  fun hplain q hq => (h hplain q hq).mono hps

theorem before (ts : List Piece) (h : Shows s ns ps qs) : Shows s ns (ts ++ ps) qs :=
  h.mono (List.suffix_append ts ps).isInfix

theorem after (ts : List Piece) (h : Shows s ns ps qs) : Shows s ns (ps ++ ts) qs :=
  h.mono (List.prefix_append ps ts).isInfix

theorem append (h : Shows s ns ps qs) (h' : Shows s ns' ps' qs') :
    Shows s (ns ++ ns') (ps ++ ps') (qs ++ qs') := by
  intro hplain q hq
  obtain ⟨hns, hns'⟩ := List.forall_mem_append.1 hplain
  obtain hq | hq := List.mem_append.1 hq
  · exact h.after ps' hns q hq
  · exact h'.before ps hns' q hq

/-- A query shows itself where it stands. -/
theorem self {d : Nat} {q : Query} (h : Shows s q.nodes (q.pieces s d) qs) :
    Shows s q.nodes (q.pieces s d) (q :: qs) :=
  fun hplain => List.forall_mem_cons.2 ⟨⟨hplain, d, List.infix_rfl⟩, h hplain⟩

theorem singleton (h : Shows s ns ps qs) : ShowsIn s ns [ps] qs :=
  fun hplain q hq => ⟨ps, List.mem_cons_self, h hplain q hq⟩

end Shows

namespace ShowsIn

theorem nil (ns : List Node) (pss : List (List Piece)) : ShowsIn s ns pss [] :=
  fun _ _ h => nomatch h

theorem map (h : ShowsIn s ns pss qs) (ts : List Piece) : ShowsIn s ns (pss.map (ts ++ ·)) qs := by
  intro hplain q hq
  obtain ⟨ps, hps, hq⟩ := h hplain q hq
  exact ⟨ts ++ ps, List.mem_map_of_mem hps, hq.mono (List.suffix_append ts ps).isInfix⟩

theorem sepBy (h : ShowsIn s ns pss qs) (sep : List Piece) : Shows s ns (Piece.sepBy sep pss) qs := by
  intro hplain q hq
  obtain ⟨ps, hps, hq⟩ := h hplain q hq
  exact hq.mono (infix_sepBy sep hps)

/-- A clause that is left out when it has no items. -/
theorem clause {c : Prop} [Decidable c] (h : ShowsIn s ns pss qs) (hc : c → pss = [])
    (h' : Shows s ns ps qs) : Shows s ns (if c then [] else ps) qs := by
  split
  · rename_i hnone
    intro hplain q hq
    obtain ⟨ps, hps, -⟩ := h hplain q hq
    rw [hc hnone] at hps
    cases hps
  · exact h'

theorem append (h : ShowsIn s ns pss qs) (h' : ShowsIn s ns' pss' qs') :
    ShowsIn s (ns ++ ns') (pss ++ pss') (qs ++ qs') := by
  intro hplain q hq
  obtain ⟨hns, hns'⟩ := List.forall_mem_append.1 hplain
  obtain hq | hq := List.mem_append.1 hq
  · exact (h hns q hq).imp fun ps hps => ⟨List.mem_append_left _ hps.1, hps.2⟩
  · exact (h' hns' q hq).imp fun ps hps => ⟨List.mem_append_right _ hps.1, hps.2⟩

/-- A group that is left out when it has no items. -/
theorem group {c : Prop} [Decidable c] (h : ShowsIn s ns pss qs) (hc : c → pss = [])
    (h' : Shows s ns ps qs) : ShowsIn s ns (if c then [] else [ps]) qs := by
  split
  · rename_i hnone
    exact hc hnone ▸ h
  · exact h'.singleton

theorem add (h : ShowsIn s ns pss qs) (pss' : List (List Piece)) : ShowsIn s ns (pss ++ pss') qs :=
  fun hplain q hq => (h hplain q hq).imp fun _ hps => ⟨List.mem_append_left _ hps.1, hps.2⟩

theorem sortClause (h : ShowsIn s ns pss qs) (lead : String) (sep : List Piece) (closing : String) :
    Shows s ns (sortClause lead sep pss closing) qs :=
  h.clause List.isEmpty_iff.1 (((h.sepBy sep).before _).after _)

end ShowsIn

/-- One more group. -/
theorem Shows.cons (h : Shows s ns ps qs) (h' : ShowsIn s ns' pss qs') :
    ShowsIn s (ns ++ ns') (ps :: pss) (qs ++ qs') :=
  h.singleton.append h'

end

mutual

theorem expr_shows : (e : Expr) → (d : Nat) → (isOperand : Bool) →
    Shows s e.nodes (e.pieces s d isOperand) e.queries
  | .column .., _, _ | .keyword _, _, _ | .const _, _, _ | .param _, _, _ | .verbatim _, _, _ => .nil _ _
  | .call c, d, _ => call_shows c d
  | .operation _ _ l r escape, d, _ =>
    .node _ (((((expr_shows l d false).after _).append (expr_shows r d false)).after _).append
      (option_shows escape d _))
  | .logic .not args, d, _ => (first_shows args d).before _
  | .logic .and args, d, false => .node _ (chain_shows .and args d)
  | .logic .or args, d, false => .node _ (chain_shows .or args d)
  | .logic .and args, d, true => .node _ ((((chain_shows .and args (d + 1)).before _).after _).after _)
  | .logic .or args, d, true => .node _ ((((chain_shows .or args (d + 1)).before _).after _).after _)
  | .nullTest e _, d, _ => .node _ ((expr_shows e d false).after _)
  | .truthTest e _, d, _ => .node _ ((expr_shows e d false).after _)
  | .cast e _ _, d, _ => .node _ (((expr_shows e d false).after _).after _)
  | .caseOf arg whens default, d, _ =>
    .node _ (((((option_shows arg d _).before _).append (when_shows whens d)).append
      (option_shows default d _)).after _)
  | .coalesce args, d, _ => .node _ ((((exprs_shows args d).sepBy _).before _).after _)
  | .link _ test op _ q, d, _ =>
    .node _ ((((((test_shows op test d).after _).after _).append (query_shows q (d + 1))).after _).after _)
  | .inList e list _, d, _ =>
    .node _ ((((((expr_shows e d false).after _).after _).after _).append
      ((exprs_shows list d).sepBy _)).after _)
  | .between e low high _, d, _ =>
    .node _ (((((((expr_shows e d false).after _).after _).after _).append
      (expr_shows low d false)).after _).append (expr_shows high d false))
  | .array es, d, _ => .node _ ((((exprs_shows es d).sepBy _).before _).after _)
  | .unary _ e, d, _ => .node _ ((expr_shows e d false).before _)
  | .nested e, d, _ => .node _ (((expr_shows e d false).before _).after _)

/-- A negation has one operand. -/
theorem first_shows : (args : List Expr) → (d : Nat) →
    Shows s (.expr (.logic .not args) :: exprNodes args) (firstOperand s d args) (exprQueries args)
  | [], _ => .nil _ _
  | [e], d => by
    have he := (expr_shows e d true).node (.expr (.logic .not [e]))
    simpa [exprNodes, exprQueries, firstOperand] using he
  | e :: e' :: r, _ => fun hplain => absurd (hplain _ List.mem_cons_self) (by simp [Node.IsPlain])

theorem chain_shows (c : Connective) : (args : List Expr) → (d : Nat) →
    Shows s (exprNodes args) (chainPieces s d c args) (exprQueries args)
  | [], _ => .nil _ _
  | e :: r, d => (expr_shows e d true).append (chainRest_shows c r d)

theorem chainRest_shows (c : Connective) : (args : List Expr) → (d : Nat) →
    Shows s (exprNodes args) (chainRest s d c args) (exprQueries args)
  | [], _ => .nil _ _
  | e :: r, d => ((expr_shows e (d + 1) true).before _).append (chainRest_shows c r d)

theorem exprs_shows : (es : List Expr) → (d : Nat) →
    ShowsIn s (exprNodes es) (exprPieces s d es) (exprQueries es)
  | [], _ => .nil _ _
  | e :: r, d => (expr_shows e d false).cons (exprs_shows r d)

theorem option_shows : (e : Option Expr) → (d : Nat) → (lead : List Piece) →
    Shows s (optionNodes e) (optionPieces s d lead e) (optionQueries e)
  | none, _, _ => .nil _ _
  | some e, d, _ => (expr_shows e d false).before _

theorem test_shows (op : Option String) : (test : Option Expr) → (d : Nat) →
    Shows s (optionNodes test) (testPieces s d op test) (optionQueries test)
  | none, _ => .nil _ _
  | some e, d => ((expr_shows e d false).after _).after _

theorem when_shows : (ws : List When) → (d : Nat) →
    Shows s (whenNodes ws) (whenPieces s d ws) (whenQueries ws)
  | [], _ => .nil _ _
  | ⟨c, r⟩ :: ws, d =>
    ((((expr_shows c d false).before _).after _).append (expr_shows r d false)).append (when_shows ws d)

/-- Beside a star stands no argument. -/
theorem call_shows : (c : Call) → (d : Nat) → Shows s c.nodes (c.pieces s d) c.queries
  | ⟨name, args, distinct, star, orderBy, withinGroup, filter, window⟩, d => by
    have hargs : Shows s
        (.call ⟨name, args, distinct, star, orderBy, withinGroup, filter, window⟩ :: argNodes args)
        (if star then [.mark "*"] else Piece.commas (argPieces s d args)) (argQueries args) := by
      cases star with
      | true =>
        intro hplain
        have hnone : args = [] := hplain _ List.mem_cons_self rfl
        subst hnone
        exact fun _ hq => nomatch hq
      | false => exact .node _ ((args_shows args d).sepBy _)
    exact ((((((hargs.before _).append ((sort_shows orderBy d).sortClause _ _ _)).after _).append
      ((sort_shows withinGroup d).sortClause _ _ _)).append (filter_shows filter d)).append
      (window_shows window d))

theorem filter_shows : (filter : Option Expr) → (d : Nat) →
    Shows s (optionNodes filter) (filterPieces s d filter) (optionQueries filter)
  | none, _ => .nil _ _
  | some e, d => ((expr_shows e d false).before _).after _

theorem window_shows : (w : Option Window) → (d : Nat) →
    Shows s (windowNodes w) (windowPieces s d w) (windowQueries w)
  | none, _ => .nil _ _
  | some ⟨partitionBy, orderBy, _⟩, d =>
    have hpartition := exprs_shows partitionBy d
    have horder := sort_shows orderBy d
    ((((hpartition.group List.isEmpty_iff.1 ((hpartition.sepBy _).before _)).append
      (horder.group List.isEmpty_iff.1 ((horder.sepBy _).before _))).add _).sepBy _ |>.before _).after _

theorem args_shows : (args : List Arg) → (d : Nat) →
    ShowsIn s (argNodes args) (argPieces s d args) (argQueries args)
  | [], _ => .nil _ _
  | .positional e :: r, d => (expr_shows e d false).cons (args_shows r d)
  | .named _ _ e :: r, d => ((expr_shows e d false).before _).cons (args_shows r d)

theorem sort_shows : (items : List SortItem) → (d : Nat) →
    ShowsIn s (sortNodes items) (sortPieces s d items) (sortQueries items)
  | [], _ => .nil _ _
  | ⟨e, _, _⟩ :: r, d => (((expr_shows e d false).after _).after _).cons (sort_shows r d)

theorem query_shows : (q : Query) → (d : Nat) → Shows s q.nodes (q.pieces s d) q.queries
  | ⟨withClause, body, orderBy, limit, offset, locking⟩, d => by
    suffices hclauses : Shows s (Query.nodes ⟨withClause, body, orderBy, limit, offset, locking⟩)
        (Query.pieces s d ⟨withClause, body, orderBy, limit, offset, locking⟩)
        (withQueries withClause ++ body.queries ++ sortQueries orderBy ++ optionQueries limit ++
          optionQueries offset) from hclauses.self
    intro hplain
    have hblank : body.isBlank = false := Body.isBlank_eq_false fun n hn =>
      hplain n (by simp [Query.nodes, hn])
    have hbody : (body.pieces s d).isEmpty = false := (body_isEmpty s d body).trans hblank
    have horder := sort_shows orderBy d
    rw [Query.pieces, hbody]
    exact ((((((with_shows withClause d).append (body_shows body d)).append
      (horder.clause List.isEmpty_iff.1 ((horder.sepBy _).before _))).append
      (option_shows limit d _)).append (option_shows offset d _)).after _) hplain

theorem with_shows : (w : Option With) → (d : Nat) →
    Shows s (withNodes w) (withPieces s d w) (withQueries w)
  | none, _ => .nil _ _
  | some ⟨_, ctes⟩, d => (((ctes_shows ctes d).sepBy _).before _).after _

theorem ctes_shows : (cs : List Cte) → (d : Nat) →
    ShowsIn s (cteNodes cs) (ctePieces s d cs) (cteQueries cs)
  | [], _ => .nil _ _
  | ⟨_, _, q⟩ :: r, d => ((((query_shows q (d + 1)).before _).after _).after _).cons (ctes_shows r d)

theorem body_shows : (b : Body) → (d : Nat) → Shows s b.nodes (b.pieces s d) b.queries
  | .select x, d => select_shows x d
  | .setOp _ _ l r, d => ((((body_shows l d).after _).after _).after _).append (body_shows r d)
  | .values rows, d => ((rows_shows rows d).sepBy _).before _
  | .query q, d => (((query_shows q (d + 1)).before _).after _).after _

theorem rows_shows : (rows : List (List Expr)) → (d : Nat) →
    ShowsIn s (rowNodes rows) (rowPieces s d rows) (rowQueries rows)
  | [], _ => .nil _ _
  | es :: r, d =>
    ((((((exprs_shows es (d + 1)).map _).sepBy _).before _).after _).after _).cons (rows_shows r d)

theorem select_shows : (x : Select) → (d : Nat) → Shows s x.nodes (x.pieces s d) x.queries
  | ⟨distinct, targets, source, condition, groupBy, having⟩, d => by
    intro hplain
    have htargets : targets ≠ [] := hplain _ List.mem_cons_self
    have hpieces : (targetPieces s (d + 1) targets).isEmpty = false := by
      rw [targetPieces_isEmpty, List.isEmpty_eq_false_iff]
      exact htargets
    have hsource := from_shows source d
    have hgroups := exprs_shows groupBy d
    rw [Select.pieces, hpieces]
    exact Shows.node _ ((((((distinct_shows distinct d).before _).append
      (((targets_shows targets (d + 1)).map _).sepBy _)).append
      (hsource.clause List.isEmpty_iff.1 ((hsource.sepBy _).before _))).append
      (option_shows condition d _)).append
      (hgroups.clause List.isEmpty_iff.1 ((hgroups.sepBy _).before _)) |>.append
      (option_shows having d _)) hplain

theorem distinct_shows : (x : Option Distinct) → (d : Nat) →
    Shows s (distinctNodes x) (distinctPieces s d x) (distinctQueries x)
  | none, _ => .nil _ _
  | some .rows, _ => .nil _ _
  | some (.on es), d => (((exprs_shows es d).sepBy _).before _).after _

theorem targets_shows : (ts : List Target) → (d : Nat) →
    ShowsIn s (targetNodes ts) (targetPieces s d ts) (targetQueries ts)
  | [], _ => .nil _ _
  | ⟨e, _⟩ :: r, d => ((expr_shows e d false).after _).cons (targets_shows r d)

theorem from_shows : (fs : List FromItem) → (d : Nat) →
    ShowsIn s (fromNodes fs) (fromPieces s d fs) (fromQueries fs)
  | [], _ => .nil _ _
  | f :: r, d => (fromItem_shows f d).cons (from_shows r d)

theorem fromItem_shows : (f : FromItem) → (d : Nat) → Shows s f.nodes (f.pieces s d) f.queries
  | .table _, _ => .nil _ _
  | .function _ call _, d => ((call_shows call d).before _).after _
  | .subquery _ q _, d => ((((query_shows q (d + 1)).before _).after _).after _).after _
  | .join _ _ l r c, d =>
    ((((((fromItem_shows l d).after _).after _).after _).append (fromItem_shows r _)).append
      (joinCondition_shows c _))
  | .verbatim _, _ => .nil _ _

theorem joinCondition_shows : (c : JoinCondition) → (d : Nat) → Shows s c.nodes (c.pieces s d) c.queries
  | .on e, d => by
    rw [JoinCondition.pieces]
    split
    · exact (expr_shows e (d + 1) false).before _
    · exact (expr_shows e d false).before _
  | .byColumns _, _ => .nil _ _
  | .none, _ => .nil _ _

end

theorem assignments_shows (as : List Assignment) :
    Shows s (assignmentNodes as) (assignmentPieces s as) (exprQueries (as.map Assignment.value)) := by
  have hin : ShowsIn s (assignmentNodes as)
      (as.map fun a => Piece.newline 1 ++ [.leaf a.target, .mark " = "] ++ a.value.pieces s 1 false)
      (exprQueries (as.map Assignment.value)) := by
    induction as with
    | nil => exact .nil _ _
    | cons a r ih => exact ((expr_shows a.value 1 false).before _).cons ih
  exact hin.sepBy _

theorem onConflict_shows : (c : Option OnConflict) →
    Shows s (c.elim [] OnConflict.nodes)
      (match c with
        | some c => c.pieces s
        | none => [])
      (c.elim [] OnConflict.queries)
  | none => .nil _ _
  | some ⟨_, .nothing⟩ => .nil _ _
  | some ⟨_, .update as condition⟩ =>
    (((assignments_shows as).before _).append (option_shows condition 0 _)).before _

/-- Rows of values without clauses are a query on a line that is not indented. -/
theorem insertSource_shows : (x : InsertSource) → Shows s x.nodes (x.pieces s) x.queries
  | .values rows => by
    have hquery := query_shows (s := s) ⟨none, .values rows, [], none, none, []⟩ 0
    intro hplain q hq
    have hnodes : Query.nodes ⟨none, .values rows, [], none, none, []⟩ = rowNodes rows := by
      simp [Query.nodes, withNodes, Body.nodes, sortNodes, optionNodes]
    obtain ⟨hqplain, d, hd⟩ := hquery (hnodes ▸ hplain) q hq
    refine ⟨hqplain, d, hd.trans ?_⟩
    have hindent : s.indentBy 0 = "" := rfl
    simp [Query.pieces, withPieces, Body.pieces, sortPieces, optionPieces, InsertSource.pieces, Piece.text,
      hindent]
  | .query q => query_shows q 0
  | .defaultValues => .nil _ _

theorem returning_shows (ts : List Target) :
    Shows s (targetNodes ts) (returningPieces s ts) (targetQueries ts) := by
  have hnone (h : ts.isEmpty) : targetPieces s 0 ts = [] :=
    List.isEmpty_iff.1 ((targetPieces_isEmpty s 0 ts).trans h)
  exact (targets_shows ts 0).clause hnone (((targets_shows ts 0).sepBy _).before _)

theorem statement_shows : (t : Statement) → Shows s t.nodes (t.pieces s) t.queries
  | .select q => query_shows q 0
  | .insert i =>
    (((insertSource_shows i.source).before _).append (onConflict_shows i.onConflict)).append
      (returning_shows i.returning)
  | .update u =>
    (((assignments_shows u.assignments).before _).append (option_shows u.condition 0 _)).append
      (returning_shows u.returning)
  | .delete x =>
    ((option_shows x.condition 0 _).before _).append (returning_shows x.returning)

/-! ### The queries of a statement -/

/-- The operands of a body, in the order of its layout. -/
def Body.operands (b : Body) : List Body :=
  b.first :: b.rest.map Step.operand

theorem Body.isOperand_of_mem {b x : Body} (h : x ∈ b.operands) : x.IsOperand := by
  obtain rfl | h := List.mem_cons.1 h
  · exact b.first_isOperand
  · obtain ⟨step, hstep, rfl⟩ := List.mem_map.1 h
    exact b.rest_isOperand step hstep

theorem Body.nodes_subset {b x : Body} (h : x ∈ b.operands) : x.nodes ⊆ b.nodes := by
  induction b using operandInduction with
  | operand b hb =>
    rw [operands, hb.first_eq, hb.rest_eq, List.map_nil, List.mem_singleton] at h
    rw [h]
    exact List.Subset.refl _
  | setOp op all l r ihl ihr =>
    have hcases : x ∈ l.operands ∨ x ∈ r.operands := by
      simpa [operands, first, rest, or_assoc] using h
    obtain hl | hr := hcases
    · exact fun n hn => List.mem_append_left _ (ihl hl hn)
    · exact fun n hn => List.mem_append_right _ (ihr hr hn)

theorem Body.infix_operand (s : Style) (d : Nat) {b x : Body} (h : x ∈ b.operands) :
    (Piece.textOf s (x.pieces s d)).toList <:+: (Piece.textOf s (b.pieces s d)).toList := by
  induction b using operandInduction with
  | operand b hb =>
    rw [operands, hb.first_eq, hb.rest_eq, List.map_nil, List.mem_singleton] at h
    rw [h]
  | setOp op all l r ihl ihr =>
    have hcases : x ∈ l.operands ∨ x ∈ r.operands := by
      simpa [operands, first, rest, or_assoc] using h
    obtain hl | hr := hcases
    · refine (ihl hl).trans (infix_textOf s ?_)
      simp only [pieces, List.append_assoc]
      exact (List.prefix_append _ _).isInfix
    · exact (ihr hr).trans (infix_textOf s (List.suffix_append _ _).isInfix)

/-- What is read is plain, if each select has targets. -/
theorem isPlain_of_isSound {n : Node} (h : n.IsSound) (htargets : n.HasTargets) : n.IsPlain := by
  cases n with
  | call c => exact h.1
  | select x => exact htargets
  | expr e =>
    cases e with
    | logic c args =>
      cases c with
      | not =>
        obtain ⟨e, rfl, -⟩ := h
        rfl
      | and | or => trivial
    | link kind test op negated q =>
      obtain ⟨htest, hop, -⟩ := h
      cases test with
      | some => trivial
      | none =>
        cases op with
        | none => rfl
        | some op =>
          cases kind with
          | all | any | membership => cases htest
          | existence | array | scalar => cases hop
    | _ => trivial

/-- A query of a tree that is read opens unless the select with which it would start has no targets, and
so does each of its operands; a query leaves nothing if its body is such a select. If there is no such
select in the tree, then all of its queries and their operands open and stand in its layout. -/
theorem queries_open_iff {x : Sql.Statement} {t : Statement} (h : Statement.ofSql x = .ok t) (s : Style) :
    (∀ q ∈ t.queries, ∀ d,
      (Opens s d (Piece.textOf s (q.pieces s d)) ↔
        q.body.first.isBlank = false ∨ q.withClause.isSome ∧ q.body.isBlank = false) ∧
      (Piece.textOf s (q.pieces s d) = "" ↔ q.body.isBlank) ∧
      ∀ b ∈ q.body.operands, (Opens s d (Piece.textOf s (b.pieces s d)) ↔ b.isBlank = false)) ∧
    ((∀ n ∈ t.nodes, n.HasTargets) → ∀ q ∈ t.queries, ∃ d,
      ∀ text ∈ Piece.textOf s (q.pieces s d) ::
          q.body.operands.map (fun b => Piece.textOf s (b.pieces s d)),
        Opens s d text ∧ text.toList <:+: (t.render s).toList) := by
  refine ⟨fun q _ d => ⟨q.opens_iff s d, q.textOf_eq_empty_iff s d, fun b hb => ?_⟩, ?_⟩
  · rw [b.opens_iff, (Body.isOperand_of_mem hb).first_eq]
  · intro htargets q hq
    have hsound := (statementOfSql_sound h).nodes
    obtain ⟨hplain, d, hd⟩ := statement_shows (s := s) t
      (fun n hn => isPlain_of_isSound (hsound n hn) (htargets n hn)) q hq
    have hbody : ∀ n ∈ q.body.nodes, n.IsPlain := fun n hn => hplain n (by
      obtain ⟨withClause, body, orderBy, limit, offset, locking⟩ := q
      simp [Query.nodes, hn])
    have hblank : q.body.isBlank = false := Body.isBlank_eq_false hbody
    have hoperand : ∀ b ∈ q.body.operands, b.isBlank = false := fun b hb =>
      Body.isBlank_eq_false fun n hn => hbody n (Body.nodes_subset hb hn)
    refine ⟨d, List.forall_mem_cons.2 ⟨⟨?_, hd⟩, List.forall_mem_map.2 fun b hb => ⟨?_, ?_⟩⟩⟩
    · exact (q.opens_iff s d).2 (.inl (hoperand _ List.mem_cons_self))
    · exact (Body.isOperand_of_mem hb).opens (hoperand b hb)
    · obtain ⟨ps, hps⟩ := q.exists_pieces_eq s d hblank
      have hpart : q.body.pieces s d <:+: q.pieces s d := ⟨withPieces s d q.withClause, ps, by
        rw [hps, List.append_assoc]⟩
      exact ((Body.infix_operand s d hb).trans (infix_textOf s hpart)).trans hd

/-- A query whose operands are a select and rows of values, inside a condition. -/
theorem queries_open_exists : ∃ x t,
    Sql.parse "select 1 where exists (select a from t union values (2))" = .ok [x] ∧
    Statement.ofSql x = .ok t ∧ t.queries.length = 2 ∧ (∀ n ∈ t.nodes, n.HasTargets) ∧
    ∀ q ∈ t.queries, ∃ d,
      ∀ text ∈ Piece.textOf {} (q.pieces {} d) ::
          q.body.operands.map (fun b => Piece.textOf {} (b.pieces {} d)),
        Opens {} d text ∧ text.toList <:+: (t.render {}).toList := by
  obtain ⟨x, t, hx, ht, hcheck⟩ := exists_of_readOne?
    "select 1 where exists (select a from t union values (2))"
    (fun _ t => t.queries.length == 2 && decide (∀ n ∈ t.nodes, n.HasTargets)) (by decide +kernel)
  rw [Bool.and_eq_true, beq_iff_eq, decide_eq_true_eq] at hcheck
  exact ⟨x, t, hx, ht, hcheck.1, hcheck.2, (queries_open_iff ht {}).2 hcheck.2⟩

/-- A select without targets inside a condition leaves nothing. -/
theorem exists_erased_query : ∃ x t,
    Sql.parse "select 1 where exists (select from t)" = .ok [x] ∧ Statement.ofSql x = .ok t ∧
    ∃ q ∈ t.queries, ∀ (s : Style) (d : Nat),
      Piece.textOf s (q.pieces s d) = "" ∧ ¬ Opens s d (Piece.textOf s (q.pieces s d)) := by
  obtain ⟨x, t, hx, ht, hcheck⟩ := exists_of_readOne? "select 1 where exists (select from t)"
    (fun _ t => t.queries.any fun q => q.body.isBlank) (by decide +kernel)
  obtain ⟨q, hq, hblank⟩ := List.any_eq_true.1 hcheck
  refine ⟨x, t, hx, ht, q, hq, fun s d => ?_⟩
  have hempty := (q.textOf_eq_empty_iff s d).2 hblank
  exact ⟨hempty, hempty ▸ not_opens_empty⟩

end SqlLayout.Layout
