import SqlLayout.Proofs.Rereading.Expressions

/-!
Phrases that are read back: lists, predicates, cases, calls and queries in expressions.
-/

namespace SqlLayout.Layout

open Sql (Token front frontKey)
open Sql.Lexer (isWord keyOf)
open Sql.Parser (Parses Leads Ends Item Listed Queried ParsesQuery ParsesOption ParsesWhens SortsBy
  Orders predicateTokens Passes Filters Groupings Windows)

variable {s : Style} {d l r l' r' : Nat} {lead lead' : String} {ps qs : List Piece} {rd rd' : Reading}
  {ts us : List Token} {x y : Sql.Expr} {e : Expr} {es : List Expr} {isOperand : Bool}

/-! ### Lists -/

/-- Expressions that are each read back. -/
theorem exists_exprs {P : List Token → Sql.Expr → Prop} {depth : Nat}
    (hes : ∀ e ∈ es, e.Rereads s d false)
    (hP : ∀ e ∈ es, ∀ ts x, Rereads s d (e.left false) (e.right false) (e.lead false)
      (e.pieces s depth false) ((e.cased s).readingIn false) ts x → P ts x) :
    ∃ tss xs, EachSpelled s (exprPieces s depth es) tss ∧ List.Forall₂ P tss xs ∧
      exprsOfSql xs = .ok (exprsCased s es) ∧ (xs = [] → es = []) := by
  induction es with
  | nil => exact ⟨[], [], .nil, .nil, rfl, fun _ => rfl⟩
  | cons e es ih =>
    obtain ⟨ts, x, h⟩ := hes e List.mem_cons_self depth
    obtain ⟨tss, xs, htss, hxs, hread, -⟩ := ih (fun a ha => hes a (List.mem_cons_of_mem e ha))
      (fun a ha => hP a (List.mem_cons_of_mem e ha))
    refine ⟨ts :: tss, x :: xs, .cons h.spelled htss, .cons (hP e List.mem_cons_self ts x h) hxs,
      ?_, fun h => by cases h⟩
    rw [exprsOfSql, h.reading, readingIn_whole, hread]
    rfl

theorem exists_items (depth : Nat) (hes : ∀ e ∈ es, e.Rereads s d false) :
    ∃ tss xs, EachSpelled s (exprPieces s depth es) tss ∧ List.Forall₂ (Item d) tss xs ∧
      exprsOfSql xs = .ok (exprsCased s es) ∧ (xs = [] → es = []) :=
  exists_exprs hes fun _ _ _ _ h => h.item

/-- Where a sort item puts nulls. -/
def nullsPieces : Option Nulls → List Piece
  | some n => [.mark n.text]
  | none => []

/-- The items of a sort list. -/
theorem exists_sorts {items : List SortItem} (depth : Nat) (h : ∀ i ∈ items, i.expr.Rereads s d false) :
    ∃ tss ys, EachSpelled s (sortPieces s depth items) tss ∧ List.Forall₂ (SortsBy d) tss ys ∧
      sortOfSql ys = .ok (sortCased s items) ∧ (ys = [] → items = []) := by
  induction items with
  | nil => exact ⟨[], [], .nil, .nil, rfl, fun _ => rfl⟩
  | cons i items ih =>
    obtain ⟨e, direction, nulls⟩ := i
    obtain ⟨ts, x, he⟩ := h _ List.mem_cons_self depth
    obtain ⟨tss, ys, htss, hys, hread, -⟩ := ih fun j hj => h j (List.mem_cons_of_mem _ hj)
    obtain ⟨ascending, hdirection, hascending⟩ : ∃ ascending,
        Spelled s .bare .bare [.mark direction.text] (Sql.Parser.directionTokens ascending) ∧
          Direction.ofSql ascending = direction := by
      cases direction with
      | default => exact ⟨none, .empty .bare, rfl⟩
      | ascending => exact ⟨some true, Spelled.mark (by decide), rfl⟩
      | descending => exact ⟨some false, Spelled.mark (by decide), rfl⟩
    obtain ⟨nullsFirst, hnulls, hfirst⟩ : ∃ nullsFirst,
        Spelled s .bare .bare (nullsPieces nulls) (Sql.Parser.nullsTokens nullsFirst) ∧
          Nulls.ofSql nullsFirst = nulls := by
      cases nulls with
      | none => exact ⟨none, .nil s .bare, rfl⟩
      | some n =>
        cases n with
        | first => exact ⟨some true, Spelled.mark (m := " NULLS FIRST") (by decide), rfl⟩
        | last => exact ⟨some false, Spelled.mark (m := " NULLS LAST") (by decide), rfl⟩
    refine ⟨_, _, .cons ?_ htss, .cons (.intro ascending nullsFirst he.item) hys, ?_, fun h =>
      by cases h⟩
    · rw [← List.append_assoc]
      exact (he.spelled.append hdirection).append hnulls
    · rw [sortOfSql, he.reading, readingIn_whole, hread, hascending, hfirst]
      rfl

theorem sortPieces_isEmpty (depth : Nat) (items : List SortItem) :
    (sortPieces s depth items).isEmpty = items.isEmpty := by
  cases items with
  | nil => rfl
  | cons i items =>
    obtain ⟨e, direction, nulls⟩ := i
    rfl

theorem exprPieces_isEmpty (depth : Nat) (es : List Expr) :
    (exprPieces s depth es).isEmpty = es.isEmpty := by
  cases es <;> rfl

theorem exists_listed_sorts {items : List SortItem} {separator : List Piece} (depth : Nat)
    (hne : items ≠ [])
    (hseparator : Spelled s .bare .fenced separator [.symbol ","])
    (h : ∀ i ∈ items, i.expr.Rereads s d false) :
    ∃ ts ys, Spelled s .fenced .bare (Piece.sepBy separator (sortPieces s depth items)) ts ∧
      Listed (SortsBy d) ts ys ∧ sortOfSql ys = .ok (sortCased s items) := by
  obtain ⟨tss, ys, htss, hys, hread, hempty⟩ := exists_sorts depth h
  exact ⟨_, ys, htss.sepBy hseparator, listed_commaTokens hys fun heq => hne (hempty heq), hread⟩

theorem exists_listed_items (depth : Nat) (hne : es ≠ []) (hes : ∀ e ∈ es, e.Rereads s d false) :
    ∃ ts xs, Spelled s .fenced .bare (Piece.commas (exprPieces s depth es)) ts ∧ Listed (Item d) ts xs ∧
      exprsOfSql xs = .ok (exprsCased s es) := by
  obtain ⟨tss, xs, htss, hxs, hread, hempty⟩ := exists_items depth hes
  exact ⟨_, xs, htss.commas, listed_commaTokens hxs fun heq => hne (hempty heq), hread⟩

/-- An expression after a word, or nothing. -/
inductive Announced (d : Nat) (w : String) : List Token → Option Sql.Expr → Prop
  | none : Announced d w [] none
  | some {ts : List Token} {x : Sql.Expr} (h : Item d ts x) : Announced d w (.word w :: ts) (some x)

theorem Announced.option {w : String} {o : Option Sql.Expr} (h : Announced d w ts o) :
    ParsesOption d w ts o := by
  cases h with
  | none => exact .none
  | some h => exact h.option w

theorem exists_option {lead : List Piece} {w : String} {o : Option Expr} (depth : Nat)
    (hlead : Spelled s .bare .fenced lead [.word w]) (ho : ∀ e ∈ o, e.Rereads s d false) :
    ∃ ts o', Spelled s .bare .bare (optionPieces s depth lead o) ts ∧ Announced d w ts o' ∧
      optionOfSql o' = .ok (optionCased s o) ∧
      ((∀ e ∈ o, e.isNested = false) → bareOptionOfSql o' = .ok (optionCased s o)) := by
  cases o with
  | none => exact ⟨[], none, .nil s .bare, .none, rfl, fun _ => rfl⟩
  | some e =>
    obtain ⟨ts, x, h⟩ := ho e rfl depth
    refine ⟨_, _, hlead.append h.spelled, .some h.item, ?_, fun hbare => ?_⟩
    · rw [optionOfSql, h.reading, readingIn_whole]
      rfl
    · rw [bareOptionOfSql, h.reading, readingIn_bare ((cased_isNested s e).trans (hbare e rfl))]
      rfl

/-! ### Predicates -/

theorem spelled_notMark (negated : Bool) :
    Spelled s .fenced .fenced (notMark negated) (predicateTokens negated []) := by
  cases negated with
  | false => exact .nil s .fenced
  | true => exact Spelled.mark (by decide)

theorem ends_predicate {w : String} {negated : Bool} (hw : w ∈ ["IN", "BETWEEN"]) (us : List Token) :
    Ends (predicateTokens negated (.word w :: us)) := by
  have hends : ∀ w ∈ ["IN", "BETWEEN"], Sql.Parser.ends (.word w) = true := by decide
  cases negated with
  | false => exact hends w hw
  | true => exact rfl

/-- A predicate after an expression, from the word that negates it on. -/
theorem spelled_predicate {negated : Bool} (hqs : Spelled s .fenced .bare qs us) :
    Spelled s .bare .bare ([.mark " "] ++ (notMark negated ++ qs)) (predicateTokens negated us) := by
  have hblank : Spelled s .bare .fenced [.mark " "] [] := Spelled.mark (by decide)
  have hspelled := hblank.append ((spelled_notMark negated).append hqs)
  rwa [List.nil_append, Sql.Parser.predicateTokens_append, List.nil_append] at hspelled

theorem rereads_inList {negated : Bool} (he : e.Rereads s (d + 1) false)
    (hr : Sql.Strength.pattern ≤ e.right false)
    (hes : ∀ e ∈ es, e.Rereads s d false) (hlead : es.head?.any (·.lead false != "(") = true) :
    (Expr.inList e es negated).Rereads s (d + 1) isOperand := by
  intro depth
  obtain ⟨ts, x, h⟩ := he depth
  cases es with
  | nil => cases hlead
  | cons e' es =>
    obtain ⟨us, y, h'⟩ := hes e' List.mem_cons_self depth
    obtain ⟨tss, xs, htss, hxs, hread, -⟩ := exists_items depth fun a ha =>
      hes a (List.mem_cons_of_mem e' ha)
    have hspelled : EachSpelled s (exprPieces s depth (e' :: es)) (us :: tss) := .cons h'.spelled htss
    have hlisted : Listed (Item d) (commaTokens (us :: tss)) (y :: xs) :=
      listed_commaTokens (.cons h'.item hxs) (List.cons_ne_nil _ _)
    have hleads : Leads false (commaTokens (us :: tss)) := by
      have hfirst : (e'.lead false == "(") = false := by simpa using hlead
      have hleads := h'.leads
      rw [hfirst] at hleads
      cases tss with
      | nil => exact hleads
      | cons ts' tss => exact hleads.append rfl
    have hopen : Spelled s .fenced .fenced [.mark "IN ("] [.word "IN", .symbol "("] :=
      Spelled.mark (by decide)
    have hclose : Spelled s .bare .bare [.mark ")"] [.symbol ")"] := Spelled.mark (by decide)
    have hpieces : (Expr.inList e (e' :: es) negated).pieces s depth isOperand =
        e.pieces s depth false ++ ([.mark " "] ++ (notMark negated ++ ([.mark "IN ("] ++
          (Piece.commas (exprPieces s depth (e' :: es)) ++ [.mark ")"])))) := by
      simp [Expr.pieces]
    rw [hpieces]
    refine ⟨_, _, h.extend (spelled_predicate (hopen.append (hspelled.commas.append hclose)))
      (ends_predicate (by decide) _)
      (h.parses.inList hr hlisted.exprs_close hleads) (Nat.lt_min.2 ⟨by decide, h.positive⟩) trivial ?_⟩
    rw [readingOf, h.reading, readingIn_whole, exprsOfSql, h'.reading, readingIn_whole, hread]
    rfl

theorem rereads_between {low high : Expr} {negated : Bool} (he : e.Rereads s (d + 1) false)
    (hr : Sql.Strength.pattern ≤ e.right false) (hlow : low.Rereads s d false)
    (hlow₁ : Sql.Strength.pattern < low.left false) (hlow₂ : Sql.Strength.and ≤ low.right false)
    (hhigh : high.Rereads s d false) (hhigh₁ : Sql.Strength.pattern < high.left false) :
    (Expr.between e low high negated).Rereads s (d + 1) isOperand := by
  intro depth
  obtain ⟨ts, x, h⟩ := he depth
  obtain ⟨us, y, h'⟩ := hlow depth
  obtain ⟨vs, z, h''⟩ := hhigh depth
  have hopen : Spelled s .fenced .fenced [.mark "BETWEEN "] [.word "BETWEEN"] := Spelled.mark (by decide)
  have hand : Spelled s .bare .fenced [.mark " AND "] [.word "AND"] := Spelled.mark (by decide)
  have hpieces : (Expr.between e low high negated).pieces s depth isOperand = e.pieces s depth false ++
      ([.mark " "] ++ (notMark negated ++ ([.mark "BETWEEN "] ++
        (low.pieces s depth false ++ ([.mark " AND "] ++ high.pieces s depth false))))) := by
    simp [Expr.pieces]
  rw [hpieces]
  refine ⟨_, _, h.extend (spelled_predicate (hopen.append (h'.spelled.append (hand.append h''.spelled))))
    (ends_predicate (by decide) _) (h.parses.between hr h'.parses hlow₁ hlow₂ h''.parses hhigh₁)
    (Nat.lt_min.2 ⟨by decide, h.positive⟩) trivial ?_⟩
  rw [readingOf, h.reading, readingIn_whole, h'.reading, readingIn_whole, h''.reading, readingIn_whole]
  rfl

/-! ### Cases -/

theorem exists_whens {ws : List When} (depth : Nat) (hne : ws ≠ [])
    (h : ∀ w ∈ ws, w.condition.Rereads s d false ∧ w.result.Rereads s d false) :
    ∃ ts xs, Spelled s .bare .bare (whenPieces s depth ws) (.word "WHEN" :: ts) ∧ ParsesWhens d ts xs ∧
      whensOfSql xs = .ok (whensCased s ws) := by
  induction ws with
  | nil => exact absurd rfl hne
  | cons w ws ih =>
    obtain ⟨condition, result⟩ := w
    obtain ⟨⟨ts, x, hc⟩, ⟨us, y, hr⟩⟩ := (h _ List.mem_cons_self).imp (· depth) (· depth)
    have hwhen : Spelled s .bare .fenced [.mark " WHEN "] [.word "WHEN"] := Spelled.mark (by decide)
    have hthen : Spelled s .bare .fenced [.mark " THEN "] [.word "THEN"] := Spelled.mark (by decide)
    have hspelled := ((hwhen.append hc.spelled).append hthen).append hr.spelled
    cases ws with
    | nil =>
      refine ⟨_, _, ?_, .one hc.parses hc.positive hr.parses hr.positive, ?_⟩
      · simpa [whenPieces] using hspelled
      · rw [whensOfSql, hc.reading, readingIn_whole, hr.reading, readingIn_whole]
        rfl
    | cons w' ws =>
      obtain ⟨vs, xs, hvs, hxs, hread⟩ := ih (List.cons_ne_nil _ _) fun w hw =>
        h w (List.mem_cons_of_mem _ hw)
      refine ⟨_, _, ?_, .cons hc.parses hc.positive hr.parses hr.positive hxs, ?_⟩
      · simpa [whenPieces] using hspelled.append hvs
      · rw [whensOfSql, hc.reading, readingIn_whole, hr.reading, readingIn_whole, hread]
        rfl

theorem rereads_caseOf {arg default : Option Expr} {ws : List When}
    (harg : ∀ e ∈ arg, e.Rereads s d false)
    (hne : ws ≠ []) (hws : ∀ w ∈ ws, w.condition.Rereads s d false ∧ w.result.Rereads s d false)
    (hdefault : ∀ e ∈ default, e.Rereads s d false) :
      (Expr.caseOf arg ws default).Rereads s (d + 1) isOperand := by
  intro depth
  obtain ⟨us, xs, hwhens, hxs, hread⟩ := exists_whens depth hne hws
  have helse : Spelled s .bare .fenced [.mark " ELSE "] [.word "ELSE"] := Spelled.mark (by decide)
  obtain ⟨vs, y, hotherwise, hy, hread', -⟩ := exists_option depth helse hdefault
  have hcase : Spelled s .fenced .bare [.mark "CASE"] [.word "CASE"] := Spelled.mark (by decide)
  have hend : Spelled s .bare .bare [.mark " END"] [.word "END"] := Spelled.mark (by decide)
  have hleads {ts : List Token} (hpoint : front ts ≠ .symbol ".") (hon : frontKey ts ≠ "ON") :
      Leads (Expr.lead isOperand (.caseOf arg ws default) == "(") (.word "CASE" :: ts) :=
    .path [] (by decide) hpoint hon
  cases arg with
  | none =>
    refine ⟨_, _, ?_, .caseWhen hxs hy.option, period_pos,
      hleads (fun heq => by cases heq) (Sql.frontKey_ne (by decide)),
      fun _ us => (by decide : "CASE" ≠ "EXISTS"), opensApart_mark (by decide) _, trivial, ?_⟩
    · simpa [Expr.pieces, optionPieces] using ((hcase.append hwhens).append hotherwise).append hend
    · rw [readingOf, hread, hread']
      rfl
  | some e =>
    obtain ⟨ts, x, h⟩ := harg e rfl depth
    have hblank : Spelled s .bare .fenced [.mark " "] [] := Spelled.mark (by decide)
    refine ⟨_, _, ?_, .caseOf h.parses h.positive h.leads hxs hy.option, period_pos,
      hleads (h.leads.symbol_ne ⟨by decide, by decide, .inr (by decide)⟩) (h.leads.key_ne (by decide)),
      fun _ us => (by decide : "CASE" ≠ "EXISTS"), opensApart_mark (by decide) _, trivial, ?_⟩
    · simpa [Expr.pieces, optionPieces] using
        ((((hcase.append hblank).append h.spelled).append hwhens).append hotherwise).append hend
    · rw [readingOf, optionOfSql, h.reading, readingIn_whole, hread, hread']
      rfl

/-! ### Calls -/

theorem isFunctionName_cased {w : String} (c : NameCase) (hw : isFunctionName w = true) :
    isFirstName (casedName c w) = true ∧ Text.eqIgnoreCase (casedName c w) "coalesce" = false := by
  simp only [isFunctionName, List.all_cons, List.all_nil, Bool.and_true, Bool.and_eq_true,
    Bool.not_eq_true'] at hw
  cases c with
  | lower => exact hw.2.1
  | upper => exact hw.2.2

theorem IsValue.isPositional (h : IsValue x) : x.isPositional = true := by
  cases x <;> first | rfl | exact h.elim

theorem argsOf_values {xs : List Sql.Expr} (hxs : ∀ x ∈ xs, IsValue x)
    (p : Outcome (Option (List Arg))) : argsOf xs p = do return (← p).map (·, false) := by
  unfold argsOf
  split
  · exact (hxs _ List.mem_cons_self).elim
  · rfl

/-- Arguments that are each read back. -/
theorem exists_args {args : List Arg} (depth : Nat)
    (h : ∀ a ∈ args, ∃ e, a = .positional e ∧ e.Rereads s d false) :
    ∃ tss xs, EachSpelled s (argPieces s depth args) tss ∧ List.Forall₂ (Item d) tss xs ∧
      (∀ x ∈ xs, IsValue x) ∧
      positionalOfSql xs = .ok (some (argsCased s args)) ∧ (xs = [] → args = []) := by
  induction args with
  | nil => exact ⟨[], [], .nil, .nil, List.forall_mem_nil _, rfl, fun _ => rfl⟩
  | cons a args ih =>
    obtain ⟨e, rfl, he⟩ := h a List.mem_cons_self
    obtain ⟨ts, x, hx⟩ := he depth
    obtain ⟨tss, xs, htss, hxs, hvalues, hread, -⟩ := ih fun b hb => h b (List.mem_cons_of_mem _ hb)
    refine ⟨ts :: tss, x :: xs, .cons hx.spelled htss, .cons hx.item hxs,
      List.forall_mem_cons.2 ⟨hx.value, hvalues⟩, ?_, fun h => by cases h⟩
    rw [positionalOfSql_cons, if_pos hx.value.isPositional, hx.reading, readingIn_whole, hread]
    rfl

theorem exists_order_clause {items : List SortItem} (depth : Nat)
    (h : ∀ i ∈ items, i.expr.Rereads s d false) :
    ∃ ts ys, Spelled s .bare .bare
      (sortClause " ORDER BY " [.mark ", "] (sortPieces s depth items) "") ts ∧
      Orders d ts ys ∧ sortOfSql ys = .ok (sortCased s items) ∧ (items = [] → ts = [] ∧ ys = []) := by
  rw [sortClause, sortPieces_isEmpty]
  by_cases hitems : items = []
  · subst hitems
    exact ⟨[], [], .nil s .bare, .none, rfl, fun _ => ⟨rfl, rfl⟩⟩
  · obtain ⟨ts, ys, hts, hys, hread⟩ := exists_listed_sorts depth hitems spelled_comma h
    have hlead : Spelled s .bare .fenced [.mark " ORDER BY "] [.word "ORDER", .word "BY"] :=
      Spelled.mark (by decide)
    rw [if_neg (by simpa using hitems)]
    refine ⟨_, ys, ?_, .some hys, hread, fun heq => absurd heq hitems⟩
    simpa using (hlead.append hts).append (Spelled.empty .bare)

theorem exists_group_clause {items : List SortItem} (depth : Nat)
    (h : ∀ i ∈ items, i.expr.Rereads s d false) :
    ∃ ts ys, Spelled s .bare .bare
      (sortClause " WITHIN GROUP (ORDER BY " [.mark ", "] (sortPieces s depth items) ")") ts ∧
      Groupings d ts ys ∧ sortOfSql ys = .ok (sortCased s items) := by
  rw [sortClause, sortPieces_isEmpty]
  by_cases hitems : items = []
  · subst hitems
    exact ⟨[], [], .nil s .bare, .none, rfl⟩
  · obtain ⟨ts, ys, hts, hys, hread⟩ := exists_listed_sorts depth hitems spelled_comma h
    have hlead : Spelled s .bare .fenced [.mark " WITHIN GROUP (ORDER BY "]
        [.word "WITHIN", .word "GROUP", .symbol "(", .word "ORDER", .word "BY"] :=
          Spelled.mark (by decide)
    have hclose : Spelled s .bare .bare [.mark ")"] [.symbol ")"] := Spelled.mark (by decide)
    rw [if_neg (by simpa using hitems)]
    refine ⟨_, ys, ?_, .some hys, hread⟩
    simpa using (hlead.append hts).append hclose

theorem exists_filter {filter : Option Expr} (depth : Nat) (h : ∀ e ∈ filter, e.Rereads s d false)
    (hbare : ∀ e ∈ filter, e.isNested = false) :
    ∃ ts o, Spelled s .bare .bare (filterPieces s depth filter) ts ∧ Filters d ts o ∧
      bareOptionOfSql o = .ok (optionCased s filter) := by
  cases filter with
  | none => exact ⟨[], none, .nil s .bare, .none, rfl⟩
  | some e =>
    obtain ⟨ts, x, he⟩ := h e rfl depth
    have hopen : Spelled s .bare .fenced [.mark " FILTER (WHERE "]
        [.word "FILTER", .symbol "(", .word "WHERE"] :=
      Spelled.mark (by decide)
    have hclose : Spelled s .bare .bare [.mark ")"] [.symbol ")"] := Spelled.mark (by decide)
    refine ⟨_, _, ?_, .some he.item, ?_⟩
    · simpa [filterPieces] using (hopen.append he.spelled).append hclose
    · rw [bareOptionOfSql, he.reading, readingIn_bare ((cased_isNested s e).trans (hbare e rfl))]
      rfl

theorem exists_window {partitionBy : List Expr} {orderBy : List SortItem} (depth : Nat)
    (hpartition : ∀ e ∈ partitionBy, e.Rereads s d false)
    (horder : ∀ i ∈ orderBy, i.expr.Rereads s d false) :
    ∃ ts w, Spelled s .bare .bare (windowPieces s depth (some ⟨partitionBy, orderBy, none⟩)) ts ∧
      Windows d ts w ∧ windowOfSql w = .ok (windowCased s (some ⟨partitionBy, orderBy, none⟩)) := by
  have hopen : Spelled s .bare .fenced [.mark " OVER("] [.word "OVER", .symbol "("] :=
    Spelled.mark (by decide)
  have hclose : Spelled s .bare .bare [.mark ")"] [.symbol ")"] := Spelled.mark (by decide)
  have hby : Spelled s .fenced .fenced [.mark "ORDER BY "] [.word "ORDER", .word "BY"] :=
    Spelled.mark (by decide)
  have hpartitionBy : Spelled s .fenced .fenced [.mark "PARTITION BY "]
      [.word "PARTITION", .word "BY"] :=
    Spelled.mark (by decide)
  have hblank : Spelled s .bare .fenced [.mark " "] [] := Spelled.mark (by decide)
  simp only [windowPieces, Window.pieces, exprPieces_isEmpty, sortPieces_isEmpty]
  by_cases hp : partitionBy = []
  · subst hp
    by_cases ho : orderBy = []
    · subst ho
      exact ⟨_, _, by simpa [Piece.sepBy] using hopen.append hclose.loosen, .order .none, rfl⟩
    · obtain ⟨ts, ys, hts, hys, hread⟩ := exists_listed_sorts depth ho spelled_comma horder
      refine ⟨_, .spec [] ys none, ?_, .order (.some hys), ?_⟩
      · simpa [Piece.sepBy, ho] using ((hopen.append hby).append hts).append hclose
      · rw [windowOfSql, hread]
        rfl
  · obtain ⟨us, xs, hus, hxs, hread⟩ := exists_listed_items depth hp hpartition
    by_cases ho : orderBy = []
    · subst ho
      refine ⟨_, .spec xs [] none, ?_, .partition hxs .none, ?_⟩
      · simpa [Piece.sepBy, hp] using ((hopen.append hpartitionBy).append hus).append hclose
      · rw [windowOfSql, hread]
        rfl
    · obtain ⟨ts, ys, hts, hys, hread'⟩ := exists_listed_sorts depth ho spelled_comma horder
      refine ⟨_, .spec xs ys none, ?_, .partition hxs (.some hys), ?_⟩
      · simpa [Piece.sepBy, hp, ho] using
          (((((hopen.append hpartitionBy).append hus).append hblank).append hby).append hts).append
            hclose
      · rw [windowOfSql, hread, hread']
        rfl

/-- The name of a function with the parenthesis after it. -/
theorem spelled_callee {w : String} (hw : isWord w.toList = true) :
    Spelled s .fenced .fenced [.leaf w, .mark "("] [.word w, .symbol "("] := by
  refine .of_runs fun cs us _ hus => ?_
  have hopen : Sql.Lexer.Runs ('(' :: cs) (.symbol "(" :: us) := .punctuation (by decide) hus
  have hends : Sql.Lexer.EndsWord ('(' :: cs) := by
    rintro _ ⟨⟩
    decide
  simpa [Piece.text] using Sql.Lexer.Runs.word hw hends hopen

/-- What stands between the parentheses of a call. -/
theorem exists_passes {args : List Arg} {items : List SortItem} {distinct : Bool} (star : Bool)
    (depth : Nat) (hshape : if star then args = [] else args ≠ [] ∨ distinct = false ∧ items = [])
    (hargs : ∀ a ∈ args, ∃ e, a = .positional e ∧ e.Rereads s d false)
    (hitems : ∀ i ∈ items, i.expr.Rereads s d false) :
    ∃ ts xs ys, Spelled s .fenced .bare ((if distinct then [.mark "DISTINCT "] else []) ++
        (if star then [.mark "*"] else Piece.commas (argPieces s depth args)) ++
        sortClause " ORDER BY " [.mark ", "] (sortPieces s depth items) "" ++ [.mark ")"]) ts ∧
      Passes d ts (if distinct then some "DISTINCT" else none) xs ys ∧ sortOfSql ys =
        .ok (sortCased s items) ∧
      argsOf xs (positionalOfSql xs) = .ok (some (argsCased s args, star)) := by
  obtain ⟨us, ys, hus, hys, hread, hnone⟩ := exists_order_clause depth hitems
  have hdistinct : Spelled s .fenced .fenced (if distinct then [.mark "DISTINCT "] else [])
      (Sql.Parser.wordTokens "DISTINCT" distinct) := by
    cases distinct with
    | false => exact .nil s .fenced
    | true => exact Spelled.mark (by decide)
  have hclose : Spelled s .bare .bare [.mark ")"] [.symbol ")"] := Spelled.mark (by decide)
  cases star with
  | true =>
    cases (show args = [] from hshape)
    refine ⟨_, _, ys, ?_, .star distinct hys, hread, rfl⟩
    simpa using ((hdistinct.append spelled_star).append hus.loosen).append hclose
  | false =>
    obtain ⟨tss, xs, htss, hxs, hvalues, hpositional, hempty⟩ := exists_args depth hargs
    have hargs : argsOf xs (positionalOfSql xs) = .ok (some (argsCased s args, false)) := by
      rw [argsOf_values hvalues, hpositional]
      rfl
    by_cases hne : args = []
    · subst hne
      obtain ⟨rfl, rfl⟩ := hshape.resolve_left (by simp)
      obtain ⟨rfl, rfl⟩ := hnone rfl
      cases htss
      cases hxs
      refine ⟨_, _, _, ?_, .none, hread, hargs⟩
      simpa [Piece.sepBy, argPieces, sortPieces, sortClause] using hclose.loosen
    · refine ⟨_, _, ys, ?_, .some distinct (listed_commaTokens hxs fun heq => hne (hempty heq)) hys,
        hread, hargs⟩
      simpa using ((hdistinct.append htss.commas).append hus).append hclose

/-- A call, of which the name, the arguments and the clauses are read back. -/
theorem Rereads.call {w : String} {ts₁ ts₂ ts₃ ts₄ : List Token} {ps₁ ps₂ ps₃ ps₄ : List Piece}
    {duplicates : Option String}
    {xs : List Sql.Expr} {ys group : List Sql.SortItem} {filter : Option Sql.Expr} {window : Sql.Window}
    {opening : List Piece} (hw : isFirstName w = true)
    (hopening : Spelled s .fenced .fenced opening [.word w, .symbol "("]) (hopens : OpensApart s
      opening) (hargs : Passes d ts₁ duplicates xs ys) (hps₁ : Spelled s .fenced .bare ps₁ ts₁)
    (hgroup : Groupings d ts₂ group) (hps₂ : Spelled s .bare .bare ps₂ ts₂)
    (hfilter : Filters d ts₃ filter)
    (hps₃ : Spelled s .bare .bare ps₃ ts₃) (hwindow : Windows d ts₄ window)
    (hps₄ : Spelled s .bare .bare ps₄ ts₄)
    (hreading : readingOf (.call [⟨w, none⟩] false duplicates xs [] ys [] group filter none window)
      = rd) :
    Rereads s (d + 1) Sql.Strength.period Sql.Strength.period lead
      (opening ++ (ps₁ ++ (ps₂ ++ (ps₃ ++ ps₄)))) rd
      (.word w :: .symbol "(" :: (ts₁ ++ (ts₂ ++ (ts₃ ++ ts₄))))
      (.call [⟨w, none⟩] false duplicates xs [] ys [] group filter none window) := by
  obtain ⟨-, hbare, hkey, -, -⟩ := isFirstName_iff hw
  exact
    { spelled := hopening.append (hps₁.append (hps₂.append (hps₃.append hps₄)))
      parses := .call hbare hargs hgroup hfilter hwindow
      positive := period_pos
      leads := .path [] hkey (fun heq => absurd (Token.symbol.inj heq) (by decide))
        (show "" ≠ "ON" by decide)
      existence := fun _ us => key_ne_of_isBare hbare (by decide)
      opens := hopens.append _
      value := trivial
      reading := hreading }

theorem rereads_call {w : String} {args : List Arg} {distinct star : Bool}
    {orderBy withinGroup : List SortItem}
    {filter : Option Expr} {window : Option Window} (hw : isFunctionName w = true)
    (hshape : if star then args = [] else args ≠ [] ∨ distinct = false ∧ orderBy = [])
    (hargs : ∀ a ∈ args, ∃ e, a = .positional e ∧ e.Rereads s d false)
    (horder : ∀ i ∈ orderBy, i.expr.Rereads s d false)
    (hgroup : ∀ i ∈ withinGroup, i.expr.Rereads s d false)
    (hfilter : ∀ e ∈ filter, e.Rereads s d false) (hbare : ∀ e ∈ filter, e.isNested = false)
    (hwindow : ∀ w ∈ window, w.frame = none ∧ (∀ e ∈ w.partitionBy, e.Rereads s d false) ∧
      ∀ i ∈ w.orderBy, i.expr.Rereads s d false) :
    (Expr.call ⟨[w], args, distinct, star, orderBy, withinGroup, filter, window⟩).Rereads s (d + 1)
      isOperand := by
  intro depth
  obtain ⟨hname, hcoalesce⟩ := isFunctionName_cased s.functionCase hw
  obtain ⟨ts₁, xs, ys, hps₁, hpasses, hys, hxs⟩ := exists_passes star depth hshape hargs horder
  obtain ⟨ts₂, zs, hps₂, hgroups, hzs⟩ := exists_group_clause depth hgroup
  obtain ⟨ts₃, o, hps₃, hfilters, ho⟩ := exists_filter depth hfilter hbare
  obtain ⟨ts₄, v, hps₄, hwindows, hv⟩ : ∃ ts v, Spelled s .bare .bare (windowPieces s depth window) ts ∧
      Windows d ts v ∧ windowOfSql v = .ok (windowCased s window) := by
    cases window with
    | none => exact ⟨[], .none, .nil s .bare, .none, rfl⟩
    | some window =>
      obtain ⟨partitionBy, orderBy, frame⟩ := window
      obtain ⟨rfl, hpartition, horder⟩ := hwindow _ rfl
      exact exists_window depth hpartition horder
  have hpieces : (Expr.call
      ⟨[w], args, distinct, star, orderBy, withinGroup, filter, window⟩).pieces s depth isOperand =
      [.leaf (casedName s.functionCase w), .mark "("] ++
        (((if distinct then [.mark "DISTINCT "] else []) ++
        (if star then [.mark "*"] else Piece.commas (argPieces s depth args)) ++
        sortClause " ORDER BY " [.mark ", "] (sortPieces s depth orderBy) "" ++ [.mark ")"]) ++
        (sortClause " WITHIN GROUP (ORDER BY " [.mark ", "] (sortPieces s depth withinGroup) ")" ++
          (filterPieces s depth filter ++ windowPieces s depth window))) := by
    simp [Expr.pieces, Call.pieces, functionName, Piece.leaves, Piece.sepBy]
  rw [hpieces]
  have hword : isWord (casedName s.functionCase w).toList = true := (isFirstName_iff hname).1
  refine ⟨_, _, .call hname (spelled_callee hword) (opensApart_word hword _) hpasses hps₁ hgroups
    hps₂ hfilters hps₃ hwindows hps₄ ?_⟩
  have hdistinct : ((if distinct then some "DISTINCT" else none) == some "DISTINCT") = distinct := by
    cases distinct <;> rfl
  have hcall (c : Call) (hc : c.name = [casedName s.functionCase w]) : Expr.ofCall c = .call c := by
    rw [Expr.ofCall]
    simp only [hc, hcoalesce, Bool.and_false, Bool.false_and, Bool.false_eq_true, if_false]
  rw [readingOf, hys, hxs, hzs, ho, hv, hdistinct]
  change Reading.same (.ok (Expr.ofCall _)) = _
  rw [hcall _ rfl]
  rfl

theorem argPieces_positional (depth : Nat) (es : List Expr) :
    argPieces s depth (es.map .positional) = exprPieces s depth es := by
  induction es with
  | nil => rfl
  | cons e es ih => rw [List.map_cons, argPieces, exprPieces, ih]

theorem argsCased_positional (es : List Expr) :
    argsCased s (es.map .positional) = (exprsCased s es).map .positional := by
  induction es with
  | nil => rfl
  | cons e es ih => rw [List.map_cons, argsCased, exprsCased, ih, List.map_cons]

theorem ofCall_coalesce (es : List Expr) :
    Expr.ofCall ⟨["COALESCE"], es.map .positional, false, false, [], [], none, none⟩ = .coalesce es := by
  have hname : Text.eqIgnoreCase "COALESCE" "coalesce" = true := by decide
  simp [Expr.ofCall, hname]

theorem rereads_coalesce (hes : ∀ e ∈ es, e.Rereads s d false) :
    (Expr.coalesce es).Rereads s (d + 1) isOperand := by
  intro depth
  have hshape : es.map Arg.positional ≠ [] ∨ false = false ∧ ([] : List SortItem) = [] := .inr ⟨rfl, rfl⟩
  obtain ⟨ts, xs, ys, hps, hpasses, hys, hxs⟩ := exists_passes (s := s) false depth hshape
    (by simpa using hes) (List.forall_mem_nil _)
  have hopening : Spelled s .fenced .fenced [.mark "COALESCE("] [.word "COALESCE", .symbol "("] :=
    Spelled.mark (by decide)
  have hpieces : (Expr.coalesce es).pieces s depth isOperand = [.mark "COALESCE("] ++
      (((if false then [.mark "DISTINCT "] else []) ++
        (if false then [.mark "*"] else Piece.commas (argPieces s depth (es.map .positional))) ++
        sortClause " ORDER BY " [.mark ", "] (sortPieces s depth []) "" ++ [.mark ")"]) ++
          ([] ++ ([] ++ []))) := by
    simp [Expr.pieces, argPieces_positional, sortPieces, sortClause]
  rw [hpieces]
  refine ⟨_, _, .call (by decide) hopening (opensApart_mark (by decide) _) hpasses hps .none
    (.nil s .bare) .none (.nil s .bare) .none (.nil s .bare) ?_⟩
  rw [readingOf, hys, hxs]
  change Reading.same (.ok
    (Expr.ofCall ⟨["COALESCE"], argsCased s (es.map .positional), false, false, [], [], none,
    none⟩)) = _
  rw [argsCased_positional, ofCall_coalesce]
  rfl

/-! ### Queries in expressions -/

/-- A query is read back wherever it is laid out. -/
def Query.Rereads (s : Style) (d : Nat) (q : Query) : Prop :=
  ∀ depth, ∃ ts x, Spelled s .fenced .bare (q.pieces s depth) ts ∧ Queried d ts x ∧
    Query.ofSql x = .ok (q.cased s) ∧ (q.opensWithWord = true → frontKey ts ∈ ["SELECT", "WITH"])

variable {q : Query}

theorem parsesQuery_of_queried {z : Sql.Query} (h : Queried d ts z) : ParsesQuery (d + 2) ts z :=
  fun us hus => h.reads (by rw [Sql.Parser.Follows, hus]; decide)

/-- A query after a parenthesis, on lines of its own. -/
theorem spelled_inner {m : String} {a : Edge} (hm : joins a m .bare = true) (depth : Nat)
    (hq : Spelled s .fenced .bare (q.pieces s (depth + 1)) ts) :
    Spelled s a .bare ([.mark m, .lineBreak] ++ q.pieces s (depth + 1) ++ Piece.newline depth ++
      [.mark ")"]) (Sql.Lexer.skim [] m.toList ++ (ts ++ [.symbol ")"])) := by
  have hopen : Spelled s a .fenced [.mark m, .lineBreak] (Sql.Lexer.skim [] m.toList) := by
    simpa using (Spelled.mark hm).append (spelled_lineBreak s)
  have hclose : Spelled s .bare .bare (Piece.newline depth ++ [.mark ")"]) [.symbol ")"] :=
    (spelled_newline s depth).append (Spelled.mark (by decide))
  simpa using (hopen.append hq).append hclose

theorem rereads_existence {negated : Bool} (hq : q.Rereads s d) :
    (Expr.link .existence none none negated q).Rereads s (d + 2) isOperand := by
  intro depth
  obtain ⟨ts, x, hspelled, hparses, hread, -⟩ := hq (depth + 1)
  have hinner := spelled_inner (a := .fenced) (m := "EXISTS(") (by decide) depth hspelled
  have hreading (negated : Bool) : readingOf (.existsIn negated x) =
      .same (.ok (.link .existence none none negated (q.cased s))) := by
    rw [readingOf, hread]
    rfl
  cases negated with
  | false =>
    refine ⟨_, _, hinner, Parses.exists (parsesQuery_of_queried hparses), period_pos,
      .path [] (by decide) ?_ ?_,
      fun hlead => absurd rfl hlead, opensApart_mark (by decide) _, trivial, hreading false⟩
    · exact fun heq => absurd (Token.symbol.inj heq) (by decide)
    · exact (by decide : "" ≠ "ON")
  | true =>
    have hnot : Spelled s .fenced .fenced [.mark "NOT "] [.word "NOT"] := Spelled.mark (by decide)
    refine ⟨_, _, hnot.append hinner, Parses.notExists (parsesQuery_of_queried hparses), period_pos,
      .path [] (by decide) (fun heq => by cases heq) ?_, fun _ us => (by decide : "NOT" ≠ "EXISTS"),
      opensApart_mark (by decide) _, trivial, hreading true⟩
    exact (by decide : keyOf (.word "EXISTS") ≠ "ON")

theorem rereads_scalar (hq : q.Rereads s d) (hopens : q.opensWithWord = true) :
    (Expr.link .scalar none none false q).Rereads s (d + 2) isOperand := by
  intro depth
  obtain ⟨ts, x, hspelled, hparses, hread, hfirst⟩ := hq (depth + 1)
  have hinner := spelled_inner (a := .fenced) (m := "(") (by decide) depth hspelled
  have hkey := hfirst hopens
  have hpoint : front (ts ++ [.symbol ")"]) ≠ .symbol "." := by
    cases ts with
    | nil => exact absurd hkey (by decide)
    | cons t ts =>
      rintro rfl
      exact absurd hkey (show "" ∉ ["SELECT", "WITH"] by decide)
  have hleads : Leads (Expr.lead isOperand (.link .scalar none none false q) == "(")
      (.symbol "(" :: (ts ++ [.symbol ")"])) :=
    .mark (show Sql.Parser.isStart true (.symbol "(") = true by decide) hpoint
  refine ⟨_, _, hinner, Parses.subquery (parsesQuery_of_queried hparses) hkey, period_pos, hleads,
    fun _ us => (by decide : "" ≠ "EXISTS"), opensApart_mark (by decide) _, trivial, ?_⟩
  rw [readingOf, hread]
  rfl

theorem rereads_membership {negated : Bool} (he : e.Rereads s (d + 2) false)
    (hr : Sql.Strength.pattern ≤ e.right false) (hq : q.Rereads s d) :
    (Expr.link .membership (some e) none negated q).Rereads s (d + 2) isOperand := by
  intro depth
  obtain ⟨ts, x, h⟩ := he depth
  obtain ⟨us, y, hspelled, hparses, hread, -⟩ := hq (depth + 1)
  have hinner := spelled_inner (a := .fenced) (m := "IN (") (by decide) depth hspelled
  have hpieces : (Expr.link .membership (some e) none negated q).pieces s depth isOperand =
      e.pieces s depth false ++ ([.mark " "] ++ (notMark negated ++ ([.mark "IN (", .lineBreak] ++
        q.pieces s (depth + 1) ++ Piece.newline depth ++ [.mark ")"]))) := by
    simp [Expr.pieces, testPieces, LinkKind.opening]
  rw [hpieces]
  refine ⟨_, _, h.extend (spelled_predicate hinner) (ends_predicate (by decide) _)
    (h.parses.inQuery hr (parsesQuery_of_queried hparses)) (Nat.lt_min.2 ⟨by decide, h.positive⟩)
      trivial ?_⟩
  rw [readingOf, h.reading, readingIn_whole, hread]
  rfl

end SqlLayout.Layout
