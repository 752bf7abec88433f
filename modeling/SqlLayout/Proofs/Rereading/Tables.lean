import SqlLayout.Proofs.Rereading.Phrases

/-!
Tables and joins that are read back.
-/

namespace SqlLayout.Layout

open Sql (Token front frontKey)
open Sql.Lexer (isWord keyOf)
open Sql.Parser (Leads Item Listed IsTarget Sourced Phrased Constrains kindWords aliasTokens aliasOf
  isAlias isTableWord dotted bare Names)

variable {s : Style} {d : Nat} {ts us : List Token} {e : Expr} {f l r : FromItem} {q : Query}
  {name : Option String}

/-- An item of a `FROM` clause is read back wherever it is laid out. -/
def FromItem.Rereads (s : Style) (d : Nat) (f : FromItem) : Prop :=
  ∀ depth, ∃ ts t, Spelled s .fenced .bare (f.pieces s depth) ts ∧ Sourced d ts t ∧
    FromItem.ofSql t = .ok (f.cased s)

/-- An item without joins is read back wherever it is laid out. -/
def FromItem.RereadsAlone (s : Style) (d : Nat) (f : FromItem) : Prop :=
  ∀ depth, ∃ ts t, Spelled s .fenced .bare (f.pieces s depth) ts ∧ Phrased d ts t ∧
    FromItem.ofFactor t = .ok (f.cased s)

theorem FromItem.RereadsAlone.joined (h : f.RereadsAlone s d) : f.Rereads s d := by
  intro depth
  obtain ⟨ts, t, hspelled, hphrased, hread⟩ := h depth
  exact ⟨ts, .factor t, hspelled, .factor hphrased, hread⟩

/-! ### Phrases -/

theorem aliasIsReadable_iff : aliasIsReadable name = true ↔ ∀ w ∈ name, isWord w.toList = true ∧
    isAlias w = true := by
  cases name <;> simp [aliasIsReadable]

theorem spelled_alias (hname : aliasIsReadable name = true) :
    Spelled s .bare .bare (aliasPieces name) (aliasTokens name) := by
  cases name with
  | none => exact .nil s .bare
  | some w =>
    have hblank : Spelled s .bare .fenced [.mark " "] [] := Spelled.mark (by decide)
    exact hblank.append (spelled_word (aliasIsReadable_iff.1 hname w rfl).1)

theorem aliasText_bare (name : Option String) : (aliasOf name).map aliasText = name := by
  cases name with
  | none => rfl
  | some w => simp [aliasOf, aliasText, Sql.Ident.print]

theorem alone_table {t : TableName} (h : t.isReadable = true) : (FromItem.table t).RereadsAlone s d := by
  intro depth
  obtain ⟨schema, name, aliasName⟩ := t
  rw [TableName.isReadable, Bool.and_eq_true] at h
  obtain ⟨hpath, hname⟩ := h
  have halias : ∀ v ∈ aliasName, isAlias v = true := fun v hv => (aliasIsReadable_iff.1 hname v hv).2
  cases schema with
  | none =>
    rw [Bool.and_eq_true] at hpath
    refine ⟨_, _, (spelled_word hpath.1).append (spelled_alias hname), .named [] hpath.2 halias, ?_⟩
    simp [FromItem.ofFactor, TableName.ofSql, aliasText_bare, bare, Sql.Ident.print]
    rfl
  | some schema =>
    simp only [Bool.and_eq_true] at hpath
    obtain ⟨⟨hschema, hfirst⟩, hword⟩ := hpath
    have hpath : Spelled s .fenced .bare (columnPieces (schema :: [name]) false) (dotted schema [name]) :=
      spelled_path hschema (by simpa using hword)
    have hspelled := hpath.append (spelled_alias hname)
    refine ⟨_, _, hspelled, .named [name] hfirst halias, ?_⟩
    simp [FromItem.ofFactor, TableName.ofSql, aliasText_bare, bare, Sql.Ident.print]
    rfl

theorem alone_subquery {isLateral : Bool} (hq : q.Rereads s d) (hname : aliasIsReadable name = true) :
    (FromItem.subquery isLateral q name).RereadsAlone s (d + 1) := by
  intro depth
  obtain ⟨ts, x, hspelled, hparses, hread, -⟩ := hq (depth + 1)
  have hinner : Spelled s .fenced .bare
      ([.mark "(", .lineBreak] ++ q.pieces s (depth + 1) ++ Piece.newline depth ++
      [.mark ")"]) (.symbol "(" :: (ts ++ [.symbol ")"])) := spelled_inner (by decide) depth hspelled
  have hall := hinner.append (spelled_alias hname)
  have halias : ∀ v ∈ name, isAlias v = true := fun v hv => (aliasIsReadable_iff.1 hname v hv).2
  have hof : FromItem.ofFactor (.derived isLateral x (aliasOf name)) =
      .ok ((FromItem.subquery isLateral q name).cased s) := by
    rw [FromItem.ofFactor, hread, aliasText_bare]
    rfl
  cases isLateral with
  | false =>
    refine ⟨_, _, ?_, .subquery (parsesQuery_of_queried hparses) halias, hof⟩
    simpa [FromItem.pieces] using hall
  | true =>
    have hlateral : Spelled s .fenced .fenced [.mark "LATERAL "] [.word "LATERAL"] :=
      Spelled.mark (by decide)
    refine ⟨_, _, ?_, .lateral (parsesQuery_of_queried hparses) halias, hof⟩
    simpa [FromItem.pieces] using hlateral.append hall

/-! ### Joins -/

theorem exists_names {columns : List String} (hne : columns ≠ [])
    (hcolumns : ∀ c ∈ columns, isWord c.toList = true) :
    ∃ ts cs, Spelled s .fenced .bare (Piece.leaves ", " columns) ts ∧ Listed Names ts cs ∧
      cs.map Sql.ObjectName.print = columns := by
  have hnames : ∃ tss cs, EachSpelled s (columns.map ([.leaf ·])) tss ∧ List.Forall₂ Names tss cs ∧
      cs.map Sql.ObjectName.print = columns := by
    clear hne
    induction columns with
    | nil => exact ⟨[], [], .nil, .nil, rfl⟩
    | cons c columns ih =>
      obtain ⟨tss, cs, htss, hcs, hprint⟩ := ih fun a ha => hcolumns a (List.mem_cons_of_mem c ha)
      refine ⟨_, _, .cons (spelled_word (hcolumns c List.mem_cons_self)) htss, .cons (.intro c) hcs, ?_⟩
      rw [List.map_cons, hprint]
      rfl
  obtain ⟨tss, cs, htss, hcs, hprint⟩ := hnames
  refine ⟨_, cs, htss.commas, listed_commaTokens hcs ?_, hprint⟩
  rintro rfl
  exact hne hprint.symm

/-- The condition of a join that is not a cross join. -/
theorem exists_condition {natural : Bool} {condition : JoinCondition} {kind : JoinKind} (depth : Nat)
    (hkind : kind ≠ .cross) (h : condition.isReadable d natural = true)
    (hon : ∀ e, condition = .on e → e.Rereads s d false) :
    ∃ ts c, Spelled s .bare .bare (condition.pieces s depth) ts ∧ Constrains d natural ts c ∧
      conditionOfSql kind c = .ok (natural, condition.cased s) := by
  cases condition with
  | on e =>
    simp only [JoinCondition.isReadable, Bool.and_eq_true, Bool.not_eq_true'] at h
    obtain ⟨⟨rfl, -⟩, hbare⟩ := h
    have hof {x : Sql.Expr} (hx : readingOf x = (e.cased s).readingIn false) :
        conditionOfSql kind (.on x) = .ok (false, .on (e.cased s)) := by
      rw [conditionOfSql, if_neg hkind, hx, readingIn_bare ((cased_isNested s e).trans hbare)]
      rfl
    by_cases hline : s.onOwnLine = true
    · obtain ⟨ts, x, he⟩ := hon e rfl (depth + 1)
      have hword : Spelled s .bare .fenced (Piece.newline (depth + 1) ++ [.mark "ON "]) [.word "ON"] :=
        (spelled_newline s (depth + 1)).append (Spelled.mark (by decide))
      refine ⟨_, _, ?_, .on he.item, hof he.reading⟩
      simpa [JoinCondition.pieces, hline] using hword.append he.spelled
    · obtain ⟨ts, x, he⟩ := hon e rfl depth
      have hword : Spelled s .bare .fenced [.mark " ON "] [.word "ON"] := Spelled.mark (by decide)
      refine ⟨_, _, ?_, .on he.item, hof he.reading⟩
      simpa [JoinCondition.pieces, hline] using hword.append he.spelled
  | byColumns columns =>
    simp only [JoinCondition.isReadable, Bool.and_eq_true, Bool.not_eq_true', List.isEmpty_eq_false_iff,
      List.all_eq_true] at h
    obtain ⟨⟨rfl, hne⟩, hcolumns⟩ := h
    obtain ⟨ts, cs, hts, hcs, hprint⟩ := exists_names (s := s) hne hcolumns
    have hopen : Spelled s .bare .fenced [.mark " USING("] [.word "USING", .symbol "("] :=
      Spelled.mark (by decide)
    have hclose : Spelled s .bare .bare [.mark ")"] [.symbol ")"] := Spelled.mark (by decide)
    refine ⟨_, _, ?_, .byColumns hcs, ?_⟩
    · simpa [JoinCondition.pieces] using hopen.append (hts.append hclose)
    · rw [conditionOfSql, hprint, if_neg hkind]
      rfl
  | none =>
    cases natural with
    | false => exact ⟨[], .none, .nil s .bare, .none, rfl⟩
    | true =>
      refine ⟨[], .natural, .nil s .bare, .natural, ?_⟩
      rw [conditionOfSql, decide_eq_true hkind]
      rfl

theorem exists_kindWords {kind : JoinKind} (hkind : kind ≠ .cross) :
    ∃ kind' ks, (kind', ks) ∈ kindWords ∧
    JoinKind.ofSql kind' = .ok kind ∧ Spelled s .fenced .fenced [.mark (kind.text ++ " ")]
      (ks.map .word) := by
  cases kind with
  | cross => exact absurd rfl hkind
  | plain => exact ⟨.plain, ["JOIN"], by decide, rfl, Spelled.mark (m := "JOIN ") (by decide)⟩
  | inner =>
    exact ⟨.inner, ["INNER", "JOIN"], by decide, rfl, Spelled.mark (m := "INNER JOIN ") (by decide)⟩
  | left => exact ⟨.left, ["LEFT", "JOIN"], by decide, rfl, Spelled.mark (m := "LEFT JOIN ") (by decide)⟩
  | leftOuter =>
    exact ⟨.leftOuter, ["LEFT", "OUTER", "JOIN"],
      by decide, rfl, Spelled.mark (m := "LEFT OUTER JOIN ") (by decide)⟩
  | right =>
    exact ⟨.right, ["RIGHT", "JOIN"], by decide, rfl, Spelled.mark (m := "RIGHT JOIN ") (by decide)⟩
  | rightOuter =>
    exact ⟨.rightOuter, ["RIGHT", "OUTER", "JOIN"],
      by decide, rfl, Spelled.mark (m := "RIGHT OUTER JOIN ") (by decide)⟩
  | full => exact ⟨.full, ["FULL", "JOIN"], by decide, rfl, Spelled.mark (m := "FULL JOIN ") (by decide)⟩

theorem rereads_join {kind : JoinKind} {natural : Bool} {condition : JoinCondition}
    (hkind : kind ≠ .cross)
    (hl : l.Rereads s d) (hr : r.RereadsAlone s d) (h : condition.isReadable d natural = true)
    (hon : ∀ e, condition = .on e → e.Rereads s d false) :
      (FromItem.join kind natural l r condition).Rereads s d := by
  intro depth
  obtain ⟨ts, t, hts, ht, hread⟩ := hl depth
  obtain ⟨us, t', hus, ht', hread'⟩ := hr (if s.joinIndented then depth + 1 else depth)
  obtain ⟨vs, c, hvs, hc, hof⟩ := exists_condition (if s.joinIndented then depth + 1 else depth)
    hkind h hon
  obtain ⟨kind', ks, hmem, hkind', hwords⟩ := exists_kindWords (s := s) hkind
  have hnatural : Spelled s .fenced .fenced (if natural then [.mark "NATURAL "] else [])
      (if natural then [.word "NATURAL"] else []) := by
    cases natural with
    | false => exact .nil s .fenced
    | true => exact Spelled.mark (by decide)
  have hline : Spelled s .bare .fenced (Piece.newline (if s.joinIndented then depth + 1 else depth))
      [] := spelled_newline s _
  refine ⟨_, _, ?_, .join ht hmem ht' hc, ?_⟩
  · simpa [FromItem.pieces] using hts.append
      (hline.append (hnatural.append (hwords.append (hus.append hvs))))
  · rw [FromItem.ofSql, hread, hkind', hread']
    change (conditionOfSql kind c >>= _) = _
    rw [hof]
    rfl

theorem rereads_crossJoin (hl : l.Rereads s d) (hr : r.RereadsAlone s d) :
    (FromItem.join .cross false l r .none).Rereads s d := by
  intro depth
  obtain ⟨ts, t, hts, ht, hread⟩ := hl depth
  obtain ⟨us, t', hus, ht', hread'⟩ := hr (if s.joinIndented then depth + 1 else depth)
  have hwords : Spelled s .fenced .fenced [.mark "CROSS JOIN "] [.word "CROSS", .word "JOIN"] :=
    Spelled.mark (by decide)
  have hline : Spelled s .bare .fenced (Piece.newline (if s.joinIndented then depth + 1 else depth))
      [] := spelled_newline s _
  refine ⟨_, _, ?_, .cross ht ht', ?_⟩
  · simpa [FromItem.pieces, JoinKind.text, JoinCondition.pieces] using hts.append
      (hline.append (hwords.append hus))
  · rw [FromItem.ofSql, hread, hread']
    rfl

/-- The tables of a select. -/
theorem exists_sources {source : List FromItem} (depth : Nat) (h : ∀ f ∈ source, f.Rereads s d) :
    ∃ tss l, EachSpelled s (fromPieces s depth source) tss ∧ List.Forall₂ (Sourced d) tss l ∧
      fromOfSql l = .ok (fromCased s source) ∧ (l = [] ↔ source = []) := by
  induction source with
  | nil => exact ⟨[], [], .nil, .nil, rfl, by simp⟩
  | cons f source ih =>
    obtain ⟨ts, t, hts, ht, hread⟩ := h f List.mem_cons_self depth
    obtain ⟨tss, l, htss, hl, hread', -⟩ := ih fun a ha => h a (List.mem_cons_of_mem f ha)
    refine ⟨_, _, .cons hts htss, .cons ht hl, ?_, by simp⟩
    rw [fromOfSql, hread, hread']
    rfl

end SqlLayout.Layout
