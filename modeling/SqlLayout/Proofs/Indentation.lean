import SqlLayout.Proofs.Exchange

/-!
Indentation. A layout that starts some levels deeper is the same layout with the units of these levels
at the start of each line, and one that is indented with blanks is the one indented with tabs with two
blanks for each tab.
-/

namespace SqlLayout.Layout

variable {s s' : Style} {k : Nat} {ps : List Piece}

/-- No text of a tree is laid out with a character that ends or indents a line if none has it. -/
theorem Exchange.spares_of_lacks (x : Exchange s s' k) {es ls : List Leaf} (hsublist : es.Sublist ls)
    (hps : leafTexts ps = es.map (Leaf.written s)) (h : ∀ l ∈ ls, l.Lacks x.char) : x.Spares ps := by
  rw [Exchange.Spares, hps, List.forall_mem_map]
  exact fun l hl => (h l (hsublist.subset hl)).not_mem_written x.isRuling s

/-- A select has targets. -/
def Node.HasTargets : Node → Prop
  | .select y => y.targets ≠ []
  | _ => True

instance : DecidablePred Node.HasTargets
  | .select y => inferInstanceAs (Decidable (y.targets ≠ []))
  | .expr _ | .call _ => .isTrue trivial

theorem Node.HasTargets.fills {blank : Prop} : {n : Node} → n.HasTargets → n.Fills blank
  | .select _, h => .inr h
  | .expr _, _ | .call _, _ => trivial

theorem Exchange.apply_deeper (t : String) :
    (Exchange.deeper s k).apply t.toList = (Text.replaceAll "\n" (s.newline k) t).toList := by
  have hnewline : (s.newline k).toList = '\n' :: (s.indentBy k).toList := by simp [Style.newline]
  have hreplaced : (Text.replaceAll "\n" (s.newline k) t).toList =
      exchanged '\n' (s.newline k).toList t.toList :=
    toList_replaceAll rfl _ t
  rw [hreplaced, hnewline]
  rfl

theorem Exchange.apply_tabs (t : String) :
    (Exchange.tabs s).apply t.toList = (Text.replaceAll "\t" "  " t).toList :=
  (toList_replaceAll rfl "  " t).symm

/-- A query that starts `k` levels deeper has the units of these levels at the start of each line, and
an expression or a table has them after each line break. -/
theorem textOf_deeper (s : Style) (d k : Nat) :
    (∀ q : Query, (∀ n ∈ q.nodes, n.HasTargets) → (∀ l ∈ q.leaves, l.Lacks '\n') →
      Piece.textOf s (q.pieces s (d + k)) =
        s.indentBy k ++ Text.replaceAll "\n" (s.newline k) (Piece.textOf s (q.pieces s d))) ∧
    (∀ (e : Expr) (isOperand : Bool),
      (∀ n ∈ e.nodes, n.HasTargets) → (∀ l ∈ e.leaves, l.Lacks '\n') →
      Piece.textOf s (e.pieces s (d + k) isOperand) =
        Text.replaceAll "\n" (s.newline k) (Piece.textOf s (e.pieces s d isOperand))) ∧
    ∀ f : FromItem, (∀ n ∈ f.nodes, n.HasTargets) → (∀ l ∈ f.leaves, l.Lacks '\n') →
      Piece.textOf s (f.pieces s (d + k)) =
        Text.replaceAll "\n" (s.newline k) (Piece.textOf s (f.pieces s d)) := by
  have hfills {ns : List Node} (hn : ∀ n ∈ ns, n.HasTargets) :
      ∀ n ∈ ns, n.Fills (Exchange.deeper s k).congruence.Blank :=
    fun n hmem => (hn n hmem).fills
  have hspares {ps : List Piece} {es ls : List Leaf} (hsublist : es.Sublist ls)
      (hps : leafTexts ps = es.map (Leaf.written s)) (hl : ∀ l ∈ ls, l.Lacks '\n') :
      (Exchange.deeper s k).Spares ps :=
    (Exchange.deeper s k).spares_of_lacks hsublist hps hl
  refine ⟨fun q hn hl => ?_, fun e isOperand hn hl => ?_, fun f hn hl => ?_⟩
  · have hquery : (Exchange.deeper s k).TurnsLine (q.pieces s d) (q.pieces s (d + k)) :=
      query_congr (C := (Exchange.deeper s k).congruence) q rfl (hfills hn)
    rw [← String.toList_inj, String.toList_append, ← Exchange.apply_deeper]
    exact hquery (hspares (query_emits q).sublist (leafTexts_query q d) hl)
  · have hexpr : (Exchange.deeper s k).Turns (e.pieces s d isOperand) (e.pieces s (d + k) isOperand) :=
      expr_congr (C := (Exchange.deeper s k).congruence) e isOperand rfl (hfills hn)
    rw [← String.toList_inj, ← Exchange.apply_deeper]
    exact hexpr (hspares (expr_emits e).sublist (leafTexts_expr e d isOperand) hl)
  · have hitem : (Exchange.deeper s k).Turns (f.pieces s d) (f.pieces s (d + k)) :=
      fromItem_congr (C := (Exchange.deeper s k).congruence) f rfl (hfills hn)
    rw [← String.toList_inj, ← Exchange.apply_deeper]
    exact hitem (hspares (fromItem_emits f).sublist (leafTexts_fromItem f d) hl)

/-- `select c from (select a from t where a and b) x`, two levels deeper. -/
theorem textOf_deeper_nested :
    let e : Expr := .logic .and [.column ["a"] false, .column ["b"] false]
    let inner : Query :=
      ⟨none, .select ⟨none, [⟨.column ["a"] false, none⟩], [.table ⟨none, "t", none⟩], some e, [], none⟩,
        [], none, none, []⟩
    let f : FromItem := .subquery false inner (some "x")
    let q : Query :=
      ⟨none, .select ⟨none, [⟨.column ["c"] false, none⟩], [f], none, [], none⟩, [], none, none, []⟩
    (∀ n ∈ q.nodes, n.HasTargets) ∧ (∀ l ∈ q.leaves, l.Lacks '\n') ∧
      Piece.textOf {} (q.pieces {} (1 + 2)) =
        "    " ++ Text.replaceAll "\n" "\n    " (Piece.textOf {} (q.pieces {} 1)) ∧
      Piece.textOf {} (e.pieces {} (1 + 2) true) =
        Text.replaceAll "\n" "\n    " "(\n    a\n      AND b\n  )" ∧
      Piece.textOf {} (f.pieces {} (1 + 2)) =
        Text.replaceAll "\n" "\n    " (Piece.textOf {} (f.pieces {} 1)) := by
  intro e inner f q
  have hexpr : ∀ n ∈ e.nodes, n.HasTargets := by
    simp [e, Expr.nodes, exprNodes, Node.HasTargets]
  have hitem : ∀ n ∈ f.nodes, n.HasTargets := by
    simpa [f, inner, FromItem.nodes, Query.nodes, withNodes, Body.nodes, Select.nodes, distinctNodes,
      targetNodes, fromNodes, optionNodes, exprNodes, sortNodes, Expr.nodes, Node.HasTargets] using hexpr
  have hquery : ∀ n ∈ q.nodes, n.HasTargets := by
    simpa [q, Query.nodes, withNodes, Body.nodes, Select.nodes, distinctNodes, targetNodes, fromNodes,
      optionNodes, exprNodes, sortNodes, Expr.nodes, Node.HasTargets] using hitem
  obtain ⟨hq, he, hf⟩ := textOf_deeper {} 1 2
  exact ⟨hquery, by decide, hq q hquery (by decide), he e true hexpr (by decide),
    hf f hitem (by decide)⟩

/-- With two blanks in place of each tab, a statement that is indented with tabs is the same statement
indented with blanks. -/
theorem render_tabs (s : Style) (t : Statement) (h : ∀ l ∈ t.leaves, l.Lacks '\t') :
    Text.replaceAll "\t" "  " (t.render { s with indent := .tab }) =
      t.render { s with indent := .twoSpaces } := by
  have hspares := (Exchange.tabs s).spares_of_lacks (statement_emits t).sublist
    (leafTexts_emitted { s with indent := .tab } t) h
  rw [← String.toList_inj, ← Exchange.apply_tabs]
  exact ((Exchange.tabs s).atLeft.statement_congr t hspares).symm

/-- `delete from t where a in (select b)`. -/
theorem render_tabs_delete :
    let q : Query :=
      ⟨none, .select ⟨none, [⟨.column ["b"] false, none⟩], [], none, [], none⟩, [], none, none, []⟩
    let t : Statement :=
      .delete ⟨⟨none, "t", none⟩, some (.link .membership (some (.column ["a"] false)) none false q), []⟩
    (∀ l ∈ t.leaves, l.Lacks '\t') ∧
      Text.replaceAll "\t" "  " "DELETE FROM t\nWHERE a IN (\n\tSELECT\n\t\tb\n)" =
        t.render { indent := .twoSpaces } := by
  intro q t
  have hlacks : ∀ l ∈ t.leaves, l.Lacks '\t' := by decide
  exact ⟨hlacks, render_tabs {} t hlacks⟩

end SqlLayout.Layout
