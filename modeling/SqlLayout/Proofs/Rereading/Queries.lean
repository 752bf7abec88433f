import SqlLayout.Proofs.Rereading.Tables

/-!
Selects, bodies and whole queries that are read back.
-/

namespace SqlLayout.Layout

open Sql (Token front frontKey)
open Sql.Lexer (isWord keyOf)
open Sql.Parser (Leads Item Listed IsTarget Projects Distincts Sources GroupsBy Groups Selects Rows
  Simple Chained
  Intersected United Named Withs Queried ParsesOption ParsesQuery Orders Limits lockTokens lockOf
    wordTokens setTokens
  dotted bare)

variable {s : Style} {d : Nat} {ts us : List Token} {x : Sql.Expr} {e : Expr} {es : List Expr}
  {q : Query} {b l r : Body}

/-! ### Projections -/

/-- One item of a projection is read back. -/
def Target.Rereads (s : Style) (d : Nat) (t : Target) : Prop :=
  ∀ depth, ∃ ts y, Spelled s .fenced .bare (t.value.pieces s depth false ++
    (match t.name with
      | some n => [.mark " AS ", .leaf n]
      | none => [])) ts ∧ Projects d ts y ∧
    ∀ rest rest', targetsOfSql rest = .ok rest' →
      targetsOfSql (y :: rest) = .ok (⟨t.value.cased s, t.name⟩ :: rest')

theorem target_star : (Target.mk (.column [] true) none).Rereads s d := by
  refine fun depth => ⟨_, _, spelled_star.tighten, .star, fun rest rest' hrest => ?_⟩
  rw [targetsOfSql_cons _ _ fun names heq => Sql.Expr.noConfusion heq, hrest]
  rfl

theorem target_pathStar {w : String} (hw : isFirstName w = true) :
    (Target.mk (.column [w] true) none).Rereads s d := by
  obtain ⟨hword, hbare, hkey, -, -⟩ := isFirstName_iff hw
  have hstar := spelled_column (s := s) true (List.cons_ne_nil w []) (by simpa using hword)
  refine fun depth => ⟨_, _, hstar, .pathStar [] hkey, fun rest rest' hrest => ?_⟩
  rw [targetsOfSql, hrest]
  rfl

theorem target_item {name : Option String} (he : e.Rereads s d false)
    (hname : ∀ w ∈ name, isWord w.toList = true) : (Target.mk e name).Rereads s d := by
  intro depth
  obtain ⟨ts, x, h⟩ := he depth
  have hread (rest : List Sql.Target) (rest' : List Target) (hrest : targetsOfSql rest = .ok rest') :
      targetsOfSql (⟨x, name.map fun n => ⟨n, none⟩⟩ :: rest) = .ok (⟨e.cased s, name⟩ :: rest') := by
    have hstar (names : Sql.ObjectName) : x ≠ .pathStar names := by
      rintro rfl
      exact h.value
    have hprint : (name.map fun n => (⟨n, none⟩ : Sql.Ident)).map Sql.Ident.print = name := by
        cases name <;> rfl
    rw [targetsOfSql_cons _ _ hstar, h.reading, readingIn_whole, hrest, hprint]
    rfl
  refine ⟨_, _, ?_, .item name h.item h.value.target, hread⟩
  cases name with
  | none => exact h.spelled.append (.nil s .bare)
  | some w =>
    have has : Spelled s .bare .fenced [.mark " AS "] [.word "AS"] := Spelled.mark (by decide)
    exact h.spelled.append (has.append (spelled_word (hname w rfl)))

theorem rereads_target {name : Option String} {isReadable : Bool}
    (h : targetIsReadable isReadable e name = true)
    (he : isReadable = true → e.Rereads s d false) : (Target.mk e name).Rereads s d := by
  unfold targetIsReadable at h
  split at h
  · cases Option.isNone_iff_eq_none.1 h
    exact target_star
  · rw [Bool.and_eq_true, Option.isNone_iff_eq_none] at h
    obtain ⟨hw, rfl⟩ := h
    exact target_pathStar hw
  · cases h
  · rw [Bool.and_eq_true] at h
    exact target_item (he h.1) fun w hw => (Option.all_eq_true _ _).1 h.2 w hw

theorem exists_targets {targets : List Target} (depth : Nat) (h : ∀ t ∈ targets, t.Rereads s d) :
    ∃ tss ys, EachSpelled s (targetPieces s depth targets) tss ∧ List.Forall₂ (Projects d) tss ys ∧
      targetsOfSql ys = .ok (targetsCased s targets) ∧ (ys = [] → targets = []) ∧
        (tss = [] → targets = []) := by
  induction targets with
  | nil => exact ⟨[], [], .nil, .nil, rfl, fun _ => rfl, fun _ => rfl⟩
  | cons t targets ih =>
    obtain ⟨e, name⟩ := t
    obtain ⟨ts, y, hts, hy, hread⟩ := h _ List.mem_cons_self depth
    obtain ⟨tss, ys, htss, hys, hread', -, -⟩ := ih fun a ha => h a (List.mem_cons_of_mem _ ha)
    exact ⟨ts :: tss, y :: ys, .cons hts htss, .cons hy hys, hread _ _ hread', fun heq =>
      (List.cons_ne_nil _ _ heq).elim, fun heq => (List.cons_ne_nil _ _ heq).elim⟩

/-! ### Selects -/

theorem exists_distinct {distinct : Option Distinct} (depth : Nat)
    (h : distinctIsReadable d distinct = true)
    (hes : ∀ es, distinct = some (.on es) → ∀ e ∈ es, e.Rereads s d false) :
    ∃ ts y, Spelled s .bare .bare (distinctPieces s depth distinct) ts ∧ Distincts d ts y ∧
      distinctOfSql y = .ok (distinctCased s distinct) := by
  match distinct, h with
  | none, _ => exact ⟨[], .none, .nil s .bare, .none, rfl⟩
  | some .rows, _ =>
    exact ⟨[.word "DISTINCT"], .rows, Spelled.mark (m := " DISTINCT") (by decide), .rows, rfl⟩
  | some (.on es), h =>
    simp only [distinctIsReadable, Bool.and_eq_true, Bool.not_eq_true', List.isEmpty_eq_false_iff] at h
    obtain ⟨ts, xs, hts, hxs, hread⟩ := exists_listed_items depth h.1 (hes es rfl)
    have hopen : Spelled s .bare .fenced [.mark " DISTINCT ON ("]
        [.word "DISTINCT", .word "ON", .symbol "("] :=
      Spelled.mark (by decide)
    have hclose : Spelled s .bare .bare [.mark ")"] [.symbol ")"] := Spelled.mark (by decide)
    refine ⟨_, _, ?_, .on hxs, ?_⟩
    · simpa [distinctPieces, Distinct.pieces] using hopen.append (hts.append hclose)
    · rw [distinctOfSql, hread]
      rfl

/-- The tables of a select with the word before them. -/
theorem exists_from {source : List FromItem} (depth : Nat) (h : ∀ f ∈ source, f.Rereads s d) :
    ∃ ts l, Spelled s .bare .bare (if (fromPieces s depth source).isEmpty then []
        else Piece.newline depth ++ [.mark "FROM "] ++ Piece.commas (fromPieces s depth source)) ts ∧
      Sources d ts l ∧ fromOfSql l = .ok (fromCased s source) ∧
        (source.isEmpty = false → l.isEmpty = false) := by
  obtain ⟨tss, l, htss, hl, hread, hempty⟩ := exists_sources depth h
  by_cases hsource : source = []
  · subst hsource
    exact ⟨[], [], .nil s .bare, .none, rfl, fun h => h⟩
  · have hpieces : (fromPieces s depth source).isEmpty = false := by
      cases source with
      | nil => exact absurd rfl hsource
      | cons f r => rfl
    have hne : l ≠ [] := fun heq => hsource (hempty.1 heq)
    have hword : Spelled s .bare .fenced (Piece.newline depth ++ [.mark "FROM "]) [.word "FROM"] :=
      (spelled_newline s depth).append (Spelled.mark (by decide))
    refine ⟨_, l, ?_, .some (listed_commaTokens hl hne), hread, fun _ => by simpa using hne⟩
    rw [hpieces]
    exact hword.append htss.commas

theorem exists_groups {groupBy : List Expr} (depth : Nat) (h : groupsAreReadable d groupBy = true)
    (hes : ∀ e ∈ groupBy, e.Rereads s d false) :
    ∃ ts xs, Spelled s .bare .bare (if (exprPieces s depth groupBy).isEmpty then []
        else Piece.newline depth ++ [.mark "GROUP BY "] ++
          Piece.commas (exprPieces s depth groupBy)) ts ∧
      Groups d ts xs ∧ exprsOfSql xs = .ok (exprsCased s groupBy) := by
  have hlead : ∀ e ∈ groupBy, (e.lead false == "(") = false := by
    clear hes
    induction groupBy with
    | nil => exact List.forall_mem_nil _
    | cons e es ih =>
      simp only [groupsAreReadable, Bool.and_eq_true, bne_iff_ne] at h
      exact List.forall_mem_cons.2 ⟨beq_eq_false_iff_ne.2 h.1.2, ih h.2⟩
  have hgroups : ∀ e ∈ groupBy, ∀ ts x, Rereads s d (e.left false) (e.right false) (e.lead false)
      (e.pieces s depth false) ((e.cased s).readingIn false) ts x → GroupsBy d ts x :=
    fun e he ts x h => ⟨h.item, hlead e he ▸ h.leads⟩
  obtain ⟨tss, xs, htss, hxs, hread, hempty⟩ := exists_exprs hes hgroups
  rw [exprPieces_isEmpty]
  by_cases hgroupBy : groupBy = []
  · subst hgroupBy
    exact ⟨[], [], .nil s .bare, .none, rfl⟩
  · have hword : Spelled s .bare .fenced (Piece.newline depth ++ [.mark "GROUP BY "])
      [.word "GROUP", .word "BY"] := (spelled_newline s depth).append (Spelled.mark (by decide))
    rw [if_neg (by simpa using hgroupBy)]
    exact ⟨_, xs, hword.append htss.commas, .some
      (listed_commaTokens hxs fun heq => hgroupBy (hempty heq)), hread⟩

/-- A select is read back wherever it is laid out. -/
def Select.Rereads (s : Style) (d : Nat) (x : Select) : Prop :=
  ∀ depth, ∃ hasTables ts y, Spelled s .fenced .bare (x.pieces s depth) (.word "SELECT" :: ts) ∧
    Selects d hasTables ts y ∧ Body.ofSql (.select y) = .ok (.select (x.cased s)) ∧
    (x.source.isEmpty = false → hasTables = true) ∧ x.pieces s depth ≠ []

theorem rereads_select {distinct : Option Distinct} {targets : List Target} {source : List FromItem}
    {condition having : Option Expr} {groupBy : List Expr}
    (hdistinct : distinctIsReadable d distinct = true)
    (hon : ∀ es, distinct = some (.on es) → ∀ e ∈ es, e.Rereads s d false) (hne : targets ≠ [])
    (htargets : ∀ t ∈ targets, t.Rereads s d) (hsource : ∀ f ∈ source, f.Rereads s d)
    (hcondition : ∀ e ∈ condition, e.Rereads s d false) (hbare : ∀ e ∈ condition, e.isNested = false)
    (hgroups : groupsAreReadable d groupBy = true) (hgroupBy : ∀ e ∈ groupBy, e.Rereads s d false)
    (hhaving : ∀ e ∈ having, e.Rereads s d false) (hbare' : ∀ e ∈ having, e.isNested = false) :
    (Select.mk distinct targets source condition groupBy having).Rereads s d := by
  intro depth
  obtain ⟨ts₀, y₀, hts₀, hy₀, hread₀⟩ := exists_distinct (s := s) depth hdistinct hon
  obtain ⟨tss, ys, htss, hys, hread₁, hempty, htss'⟩ := exists_targets (depth + 1) htargets
  obtain ⟨ts₂, l, hts₂, hl, hread₂, htables⟩ := exists_from depth hsource
  have hwhere : Spelled s .bare .fenced (Piece.newline depth ++ [.mark "WHERE "]) [.word "WHERE"] :=
    (spelled_newline s depth).append (Spelled.mark (by decide))
  obtain ⟨ts₃, o₃, hts₃, ho₃, -, hread₃⟩ := exists_option depth hwhere hcondition
  obtain ⟨ts₄, xs, hts₄, hxs, hread₄⟩ := exists_groups depth hgroups hgroupBy
  have hword : Spelled s .bare .fenced (Piece.newline depth ++ [.mark "HAVING "]) [.word "HAVING"] :=
    (spelled_newline s depth).append (Spelled.mark (by decide))
  obtain ⟨ts₅, o₅, hts₅, ho₅, -, hread₅⟩ := exists_option depth hword hhaving
  have hselect : Spelled s .fenced .bare [.indent depth, .mark "SELECT"] [.word "SELECT"] :=
    (spelled_indent s depth).append (Spelled.mark (by decide))
  have hlines := htss.lines (depth + 1) fun heq => hne (htss' heq)
  have hpieces : (targetPieces s (depth + 1) targets).isEmpty = false := by
    cases targets with
    | nil => exact absurd rfl hne
    | cons t r =>
      obtain ⟨e, name⟩ := t
      rfl
  refine ⟨_, _, _, ?_, .intro hy₀ (listed_commaTokens hys fun heq => hne (hempty heq)) hl ho₃.option
    hxs ho₅.option, ?_, fun h => by rw [htables h]; rfl, ?_⟩
  · have hall := hselect.append
      (hts₀.append (hlines.append (hts₂.append (hts₃.append (hts₄.append hts₅)))))
    simpa [Select.pieces, hpieces] using hall
  · rw [Body.ofSql]
    change (do
      let x ← Select.ofSql _
      return Body.select x) = _
    rw [Select.ofSql, hread₀, hread₁, hread₂, hread₃ hbare, hread₄, hread₅ hbare']
    rfl
  · simp [Select.pieces, hpieces]

/-! ### Bodies -/

/-- The tokens of a body that binds at least as tightly as the rank. -/
def Ranked (d : Nat) : Nat → Bool → List Token → Sql.Body → Prop
  | 0 => United d
  | 1 => Intersected d
  | _ => Simple d

theorem Ranked.intersected {n : Nat} {f : Bool} {y : Sql.Body} (h : Ranked d n f ts y) (hn : 1 ≤ n) :
    Intersected d f ts y := by
  match n, hn with
  | 1, _ => exact h
  | n + 2, _ => exact .one h

theorem Ranked.united {n : Nat} {f : Bool} {y : Sql.Body} (h : Ranked d n f ts y) : United d f ts y := by
  match n with
  | 0 => exact h
  | 1 => exact .one h
  | n + 2 => exact .one (.one h)

/-- A body is read back wherever it is laid out. -/
def Body.Rereads (s : Style) (d : Nat) (b : Body) : Prop :=
  ∀ depth, ∃ f ts y, Spelled s .fenced .bare (b.pieces s depth) ts ∧ Ranked d b.rank f ts y ∧
    Body.ofSql y = .ok (b.cased s) ∧ (b.mayLock = true → f = true) ∧
    (b.opensWithSelect = true → ∀ us, frontKey (ts ++ us) = "SELECT") ∧ b.pieces s depth ≠ []

theorem rereads_selectBody {x : Select} (h : x.Rereads s d) : (Body.select x).Rereads s d := by
  intro depth
  obtain ⟨hasTables, ts, y, hspelled, hparses, hread, htables, hne⟩ := h depth
  exact ⟨hasTables, _, .select y, hspelled, .select hparses, hread,
    fun hlock => htables (by simpa [Body.mayLock] using hlock), fun _ _ => rfl, hne⟩

theorem rereads_queryBody (hq : q.Rereads s d) : (Body.query q).Rereads s (d + 1) := by
  intro depth
  obtain ⟨ts, x, hspelled, hparses, hread, -⟩ := hq (depth + 1)
  have hinner : Spelled s .fenced .bare
      ([.mark "(", .lineBreak] ++ q.pieces s (depth + 1) ++ Piece.newline depth ++
      [.mark ")"]) (.symbol "(" :: (ts ++ [.symbol ")"])) := spelled_inner (by decide) depth hspelled
  refine ⟨true, _, .query x, ?_, .query (parsesQuery_of_queried hparses), ?_, fun _ => rfl, fun h =>
    Bool.noConfusion h, ?_⟩
  · simpa [Body.pieces] using (spelled_indent s depth).append hinner
  · rw [Body.ofSql, hread]
    rfl
  · simp [Body.pieces]

/-- The rows of values. -/
theorem exists_rows {rows : List (List Expr)} (depth : Nat) (hne : ∀ es ∈ rows, es ≠ [])
    (h : ∀ es ∈ rows, ∀ e ∈ es, e.Rereads s d false) :
    ∃ tss ys, EachSpelled s (rowPieces s depth rows) tss ∧ List.Forall₂ (Rows d) tss ys ∧
      rowsOfSql ys = .ok (rowsCased s rows) ∧ (ys = [] → rows = []) := by
  induction rows with
  | nil => exact ⟨[], [], .nil, .nil, rfl, fun _ => rfl⟩
  | cons es rows ih =>
    obtain ⟨ts, xs, hts, hxs, hread, hempty⟩ := exists_items (depth + 1) (h es List.mem_cons_self)
    obtain ⟨tss, ys, htss, hys, hread', -⟩ := ih (fun a ha => hne a (List.mem_cons_of_mem es ha))
      fun a ha => h a (List.mem_cons_of_mem es ha)
    have hes : xs ≠ [] := fun heq => hne es List.mem_cons_self (hempty heq)
    have hopen : Spelled s .fenced .bare [.mark "("] [.symbol "("] := Spelled.mark (by decide)
    have hclose : Spelled s .bare .bare (Piece.newline depth ++ [.mark ")"]) [.symbol ")"] :=
      (spelled_newline s depth).append (Spelled.mark (by decide))
    have hlines := hts.lines (depth + 1) (by
      rintro rfl
      cases hxs
      exact hes rfl)
    refine ⟨_, _, .cons ?_ htss, .cons (.intro (listed_commaTokens hxs hes)) hys, ?_, fun h =>
      by cases h⟩
    · simpa using hopen.append (hlines.append hclose)
    · rw [rowsOfSql, hread, hread']
      rfl

theorem rereads_values {rows : List (List Expr)} (hrows : rows ≠ []) (hne : ∀ es ∈ rows, es ≠ [])
    (h : ∀ es ∈ rows, ∀ e ∈ es, e.Rereads s d false) : (Body.values rows).Rereads s d := by
  intro depth
  obtain ⟨tss, ys, htss, hys, hread, hempty⟩ := exists_rows depth hne h
  have hword : Spelled s .fenced .fenced [.indent depth, .mark "VALUES "] [.word "VALUES"] :=
    (spelled_indent s depth).append (Spelled.mark (by decide))
  refine ⟨true, _, .values false false ys, hword.append htss.commas,
    .values (listed_commaTokens hys fun heq => hrows (hempty heq)), ?_, fun _ => rfl, fun h =>
      Bool.noConfusion h, ?_⟩
  · rw [Body.ofSql, hread]
    rfl
  · simp [Body.pieces]

/-- An operator between two bodies on a line of its own. -/
theorem spelled_setOperator (op : SetOperator) (all : Bool) (depth : Nat) :
    Spelled s .bare .fenced
      (Piece.newline depth ++ [.mark (op.text ++ if all then " ALL" else "")] ++ [.lineBreak])
      (setTokens op.text all) := by
  have hmark : Spelled s .fenced .bare [.mark (op.text ++ if all then " ALL" else "")]
      (setTokens op.text all) := by
    have htokens : joins .fenced (op.text ++ if all then " ALL" else "") .bare = true ∧
        Sql.Lexer.skim [] (op.text ++ if all then " ALL" else "").toList = setTokens op.text all := by
      cases op <;> cases all <;> decide
    exact htokens.2 ▸ Spelled.mark htokens.1
  simpa using ((spelled_newline s depth).append hmark).append (spelled_lineBreak s)

theorem rereads_setOp {op : SetOperator} {all : Bool} (hl : l.Rereads s d) (hr : r.Rereads s d)
    (hrank : (Body.setOp op all l r).rank ≤ l.rank) (hrank' : (Body.setOp op all l r).rank < r.rank) :
    (Body.setOp op all l r).Rereads s d := by
  intro depth
  obtain ⟨f, ts, y, hts, hy, hread, -, hfirst, hne⟩ := hl depth
  obtain ⟨f', us, z, hus, hz, hread', hlock, -, -⟩ := hr depth
  have hquantifier : keepsDuplicates (if all then .all else .none) = .ok all := by cases all <;> rfl
  have hspelled : Spelled s .fenced .bare ((Body.setOp op all l r).pieces s depth)
      (ts ++ (setTokens op.text all ++ us)) := by
    simpa [Body.pieces] using hts.append ((spelled_setOperator op all depth).append hus)
  have hselect (h : (Body.setOp op all l r).opensWithSelect = true) (vs : List Token) :
      frontKey ((ts ++ (setTokens op.text all ++ us)) ++ vs) = "SELECT" := by
    rw [List.append_assoc]
    exact hfirst h _
  have hpieces : (Body.setOp op all l r).pieces s depth ≠ [] := by simp [Body.pieces]
  cases op with
  | intersect =>
    have hsimple : Simple d f' us z := by
      have hrank' : 1 < r.rank := hrank'
      generalize r.rank = n at hz hrank'
      match n, hrank' with
      | n + 2, _ => exact hz
    refine ⟨f', _, _, hspelled, .op all (hy.intersected hrank) List.mem_cons_self hsimple, ?_,
      hlock, hselect, hpieces⟩
    rw [Body.ofSql, hread, hread', hquantifier]
    rfl
  | union =>
    refine ⟨f', _, _, hspelled, .op all hy.united List.mem_cons_self (hz.intersected hrank'), ?_,
      hlock, hselect, hpieces⟩
    rw [Body.ofSql, hread, hread', hquantifier]
    rfl
  | except =>
    refine ⟨f', _, _, hspelled, .op all hy.united (List.mem_cons_of_mem _ List.mem_cons_self)
      (hz.intersected hrank'), ?_, hlock, hselect, hpieces⟩
    rw [Body.ofSql, hread, hread', hquantifier]
    rfl

/-! ### Queries -/

/-- The words that tell whether a named query is kept. -/
theorem exists_materialized {materialized : Option String}
    (h : materialized.all ["MATERIALIZED", "NOT MATERIALIZED"].contains = true) :
    ∃ m, Spelled s .fenced .fenced (match materialized with
        | some m => [.leaf m, .mark " "]
        | none => []) (Sql.Parser.materializedTokens m) ∧
      m.map (fun m => if m then "MATERIALIZED" else "NOT MATERIALIZED") = materialized := by
  have hblank : Spelled s .bare .fenced [.mark " "] [] := Spelled.mark (by decide)
  match materialized, h with
  | none, _ => exact ⟨none, .nil s .fenced, rfl⟩
  | some m, h =>
    have hm : m = "MATERIALIZED" ∨ m = "NOT MATERIALIZED" := by simpa using h
    obtain rfl | rfl := hm
    · have hword : Spelled s .fenced .bare [.mark "MATERIALIZED"] [.word "MATERIALIZED"] :=
      Spelled.mark (by decide)
      exact ⟨some true, hword.leaf.append hblank, rfl⟩
    · have hword : Spelled s .fenced .bare [.mark "NOT MATERIALIZED"]
        [.word "NOT", .word "MATERIALIZED"] := Spelled.mark (by decide)
      exact ⟨some false, hword.leaf.append hblank, rfl⟩

/-- The named queries of a `WITH` clause. -/
theorem exists_ctes {ctes : List Cte} (depth : Nat) (h : ctesAreReadable (d + 1) ctes = true)
    (hctes : ∀ c ∈ ctes, c.query.Rereads s d) :
    ∃ tss cs, EachSpelled s (ctePieces s depth ctes) tss ∧ List.Forall₂ (Named (d + 1)) tss cs ∧
      ctesOfSql cs = .ok (ctesCased s ctes) ∧ (cs = [] → ctes = []) := by
  induction ctes with
  | nil => exact ⟨[], [], .nil, .nil, rfl, fun _ => rfl⟩
  | cons c ctes ih =>
    obtain ⟨name, materialized, q⟩ := c
    simp only [ctesAreReadable, Bool.and_eq_true, bne_iff_ne] at h
    obtain ⟨⟨⟨⟨⟨hname, hkey⟩, hmaterialized⟩, -⟩, -⟩, hrest⟩ := h
    obtain ⟨ts, x, hspelled, hparses, hread, -⟩ := hctes _ List.mem_cons_self (depth + 1)
    obtain ⟨tss, cs, htss, hcs, hread', -⟩ := ih hrest fun a ha => hctes a (List.mem_cons_of_mem _ ha)
    obtain ⟨m, hm, hm'⟩ := exists_materialized (s := s) hmaterialized
    have has : Spelled s .bare .fenced [.mark " AS "] [.word "AS"] := Spelled.mark (by decide)
    have hinner : Spelled s .fenced .bare
        ([.mark "(", .lineBreak] ++ q.pieces s (depth + 1) ++ Piece.newline depth ++
        [.mark ")"]) (.symbol "(" :: (ts ++ [.symbol ")"])) := spelled_inner (by decide) depth hspelled
    refine ⟨_, _, .cons ?_ htss, .cons (.intro m hkey (parsesQuery_of_queried hparses)) hcs, ?_,
      fun h => by cases h⟩
    · have hall := (spelled_word hname).append (has.append (hm.append hinner))
      simp only [List.append_assoc, List.cons_append, List.nil_append] at hall ⊢
      exact hall
    · have halias : aliasText ⟨false, ⟨name, none⟩, []⟩ = name := by simp [aliasText, Sql.Ident.print]
      rw [ctesOfSql, hread, hread', hm', halias]
      rfl

theorem exists_with {withClause : Option With} (depth : Nat) (h : withIsReadable d withClause = true)
    (hctes : ∀ w ∈ withClause, ∀ c ∈ w.ctes, c.query.Rereads s (d - 1)) :
    ∃ ts isRecursive cs named, Spelled s .fenced .fenced (withPieces s depth withClause) ts ∧
      Withs d ts isRecursive cs ∧ ctesOfSql cs = .ok named ∧
      (if cs.isEmpty then none else some (With.mk isRecursive named)) = withCased s withClause ∧
      (withClause.isSome = true → ∀ us, frontKey (ts ++ us) = "WITH") ∧
        (withClause = none → ts = []) := by
  match withClause, h with
  | none, _ =>
    exact ⟨[], false, [], [], .nil s .fenced, .none, rfl, rfl, fun h => Bool.noConfusion h, fun _ => rfl⟩
  | some ⟨isRecursive, ctes⟩, h =>
    simp only [withIsReadable, Bool.and_eq_true, Bool.not_eq_true', List.isEmpty_eq_false_iff] at h
    obtain ⟨hne, hreadable⟩ := h
    have hd : 0 < d := by
      cases ctes with
      | nil => exact absurd rfl hne
      | cons c ctes =>
        obtain ⟨name, materialized, q⟩ := c
        simp only [ctesAreReadable, Bool.and_eq_true, decide_eq_true_eq] at hreadable
        exact hreadable.1.1.2
    obtain ⟨d, rfl⟩ : ∃ n, d = n + 1 := ⟨d - 1, by omega⟩
    obtain ⟨tss, cs, htss, hcs, hread, hempty⟩ := exists_ctes depth hreadable (hctes _ rfl)
    have hcs' : cs ≠ [] := fun heq => hne (hempty heq)
    have hword : Spelled s .fenced .fenced [.indent depth, .mark "WITH "] [.word "WITH"] :=
      (spelled_indent s depth).append (Spelled.mark (by decide))
    have hrecursive : Spelled s .fenced .fenced (if isRecursive then [.mark "RECURSIVE "] else [])
        (wordTokens "RECURSIVE" isRecursive) := by
      cases isRecursive with
      | false => exact .nil s .fenced
      | true => exact Spelled.mark (by decide)
    refine ⟨_, isRecursive, cs, _, ?_, .some isRecursive (listed_commaTokens hcs hcs'), hread, ?_,
      fun _ us => rfl, fun heq => by cases heq⟩
    · simpa [withPieces, With.pieces] using hword.append
        (hrecursive.append (htss.commas.append (spelled_lineBreak s)))
    · rw [if_neg (by simpa using hcs')]
      rfl

/-- What a lock is read from. -/
def Locking.parts (l : Locking) : Bool × Option String × Option Sql.Waiting :=
  (l.strength == .share, l.of, l.waiting.map fun
    | .noWait => .noWait
    | .skipLocked => .skipLocked)

theorem ofSql_parts (l : Locking) : Locking.ofSql (lockOf l.parts) = l := by
  obtain ⟨strength, of, waiting⟩ := l
  cases strength <;> cases of <;> rcases waiting with _ | _ | _ <;> rfl

theorem spelled_of (of : Option String) : (∀ w ∈ of, isWord w.toList = true) → Spelled s .bare .bare
    (match of with
      | some t => [.mark " OF ", .leaf t]
      | none => []) (Sql.Parser.ofTokens of) := by
  intro h
  cases of with
  | none => exact .nil s .bare
  | some w =>
    have hword : Spelled s .bare .fenced [.mark " OF "] [.word "OF"] := Spelled.mark (by decide)
    exact hword.append (spelled_word (h w rfl))

theorem spelled_waiting (waiting : Option Waiting) : Spelled s .bare .bare
    (match waiting with
      | some w => [.mark (" " ++ w.text)]
      | none => [])
    (Sql.Parser.waitingTokens (waiting.map fun
      | .noWait => .noWait
      | .skipLocked => .skipLocked)) := by
  match waiting with
  | none => exact .nil s .bare
  | some .noWait => exact Spelled.mark (m := " NOWAIT") (by decide)
  | some .skipLocked => exact Spelled.mark (m := " SKIP LOCKED") (by decide)

theorem spelled_lock {l : Locking} (depth : Nat) (h : l.isReadable = true) :
    Spelled s .bare .bare (Piece.newline depth ++ l.pieces) (lockTokens [l.parts]) := by
  obtain ⟨strength, of, waiting⟩ := l
  have hstrength : Spelled s .bare .bare (Piece.newline depth ++ [.mark strength.text])
      [.word "FOR", .word (if strength == .share then "SHARE" else "UPDATE")] := by
    cases strength with
    | update => exact (spelled_newline s depth).append (Spelled.mark (m := "FOR UPDATE") (by decide))
    | share => exact (spelled_newline s depth).append (Spelled.mark (m := "FOR SHARE") (by decide))
  have hof : ∀ w ∈ of, isWord w.toList = true := by
    rintro w rfl
    exact h
  have hall := hstrength.append ((spelled_of of hof).append (spelled_waiting waiting))
  simp only [Locking.pieces, lockTokens, Locking.parts, List.append_assoc, List.cons_append,
    List.nil_append, List.append_nil] at hall ⊢
  exact hall

theorem lockTokens_cons (l : Bool × Option String × Option Sql.Waiting)
    (r : List (Bool × Option String × Option Sql.Waiting)) :
    lockTokens (l :: r) = lockTokens [l] ++ lockTokens r := by
  simp [lockTokens]

theorem spelled_locks {locking : List Locking} (depth : Nat) (h : ∀ l ∈ locking, l.isReadable = true) :
    Spelled s .bare .bare (locking.map fun l => Piece.newline depth ++ l.pieces).flatten
      (lockTokens (locking.map Locking.parts)) := by
  induction locking with
  | nil => exact .nil s .bare
  | cons l locking ih =>
    rw [List.map_cons, List.flatten_cons, List.map_cons, lockTokens_cons]
    exact (spelled_lock depth (h l List.mem_cons_self)).append
      (ih fun a ha => h a (List.mem_cons_of_mem l ha))

/-- The sort list of a query, each item on a line of its own. -/
theorem exists_sort_clause {items : List SortItem} (depth : Nat)
    (h : ∀ i ∈ items, i.expr.Rereads s d false) :
    ∃ ts ys, Spelled s .bare .bare (if (sortPieces s depth items).isEmpty then []
        else Piece.newline depth ++ [.mark "ORDER BY "] ++
          Piece.sepBy (.mark "," :: Piece.newline (depth + 1)) (sortPieces s depth items)) ts ∧
      Orders d ts ys ∧ sortOfSql ys = .ok (sortCased s items) ∧ (items.isEmpty = false → ts ≠ []) := by
  rw [sortPieces_isEmpty]
  by_cases hitems : items = []
  · subst hitems
    exact ⟨[], [], .nil s .bare, .none, rfl, fun h => by cases h⟩
  · have hcomma : Spelled s .bare .bare [.mark ","] [.symbol ","] := Spelled.mark (by decide)
    obtain ⟨ts, ys, hts, hys, hread⟩ := exists_listed_sorts depth hitems
      (hcomma.append (spelled_newline s (depth + 1))) h
    have hword : Spelled s .bare .fenced (Piece.newline depth ++ [.mark "ORDER BY "])
        [.word "ORDER", .word "BY"] :=
      (spelled_newline s depth).append (Spelled.mark (by decide))
    rw [if_neg (by simpa using hitems)]
    exact ⟨_, ys, hword.append hts, .some hys, hread, fun _ => List.cons_ne_nil _ _⟩

theorem Announced.limits {o : Option Sql.Expr} (h : Announced d "LIMIT" ts o) : Limits d ts o := by
  cases h with
  | none => exact .none
  | some h => exact .some h

theorem Announced.ne_nil {w : String} {o : Option Sql.Expr} (h : Announced d w ts o)
    (ho : o.isSome = true) : ts ≠ [] := by
  cases h with
  | none => cases ho
  | some h => exact List.cons_ne_nil _ _

theorem isSome_of_optionOfSql {o : Option Sql.Expr} {o' : Option Expr} (h : optionOfSql o = .ok o')
    : o.isSome = o'.isSome := by
  cases o with
  | none =>
    cases h
    rfl
  | some x =>
    rw [optionOfSql] at h
    cases hx : (readingOf x).whole with
    | error f =>
      rw [hx] at h
      cases h
    | ok e =>
      rw [hx] at h
      cases h
      rfl

theorem optionCased_isSome (o : Option Expr) : (optionCased s o).isSome = o.isSome := by
  cases o <;> rfl

theorem rereads_query {withClause : Option With} {body : Body} {orderBy : List SortItem}
    {limit offset : Option Expr}
    {locking : List Locking} (hwith : withIsReadable d withClause = true)
    (hctes : ∀ w ∈ withClause, ∀ c ∈ w.ctes, c.query.Rereads s (d - 1)) (hbody : body.Rereads s d)
    (horder : ∀ i ∈ orderBy, i.expr.Rereads s d false) (hlimit : ∀ e ∈ limit, e.Rereads s d false)
    (hoffset : ∀ e ∈ offset, e.Rereads s d false) (hlocking : ∀ l ∈ locking, l.isReadable = true)
    (hlock : locking = [] ∨ body.mayLock = true ∨ orderBy.isEmpty = false ∨ limit.isSome = true ∨
      offset.isSome = true) :
    (Query.mk withClause body orderBy limit offset locking).Rereads s d := by
  intro depth
  obtain ⟨ts₀, isRecursive, cs, named, hts₀, hwiths, hnamed, hread₀, hwithKey, hnoWith⟩ :=
    exists_with depth hwith hctes
  obtain ⟨f, ts₁, y, hts₁, hranked, hread₁, hmay, hselect, hne⟩ := hbody depth
  obtain ⟨ts₂, ys, hts₂, hys, hread₂, hsorted⟩ := exists_sort_clause depth horder
  have hlimitWord : Spelled s .bare .fenced (Piece.newline depth ++ [.mark "LIMIT "]) [.word "LIMIT"] :=
    (spelled_newline s depth).append (Spelled.mark (by decide))
  obtain ⟨ts₃, o₃, hts₃, ho₃, hread₃, -⟩ := exists_option depth hlimitWord hlimit
  have hoffsetWord : Spelled s .bare .fenced (Piece.newline depth ++ [.mark "OFFSET "])
      [.word "OFFSET"] :=
    (spelled_newline s depth).append (Spelled.mark (by decide))
  obtain ⟨ts₄, o₄, hts₄, ho₄, hread₄, -⟩ := exists_option depth hoffsetWord hoffset
  have hts₅ := spelled_locks (s := s) depth hlocking
  have hlimitSome : o₃.isSome = limit.isSome :=
    (isSome_of_optionOfSql hread₃).trans (optionCased_isSome limit)
  have hoffsetSome : o₄.isSome = offset.isSome :=
    (isSome_of_optionOfSql hread₄).trans (optionCased_isSome offset)
  have hlock' : f = true ∨ locking.map Locking.parts = [] ∨ ts₂ ++ (ts₃ ++ ts₄) ≠ [] := by
    obtain rfl | h | h | h | h := hlock
    · exact .inr (.inl rfl)
    · exact .inl (hmay h)
    · exact .inr (.inr (List.append_ne_nil_of_left_ne_nil (hsorted h) _))
    · refine .inr (.inr (List.append_ne_nil_of_right_ne_nil _ (List.append_ne_nil_of_left_ne_nil ?_ _)))
      exact ho₃.ne_nil (hlimitSome.trans h)
    · refine .inr (.inr (List.append_ne_nil_of_right_ne_nil _ (List.append_ne_nil_of_right_ne_nil _ ?_)))
      exact ho₄.ne_nil (hoffsetSome.trans h)
  refine ⟨_, _, ?_, .intro (locking.map Locking.parts) hwiths hranked.united hys ho₃.limits
    ho₄.option hlock', ?_, ?_⟩
  · have hall := hts₀.append (hts₁.append (hts₂.append (hts₃.append (hts₄.append hts₅))))
    simpa [Query.pieces, hne] using hall
  · have hread₅ : ((locking.map Locking.parts).map lockOf).map Locking.ofSql = locking := by
      simp [Function.comp_def, ofSql_parts]
    rw [Query.ofSql, hnamed, hread₁, hread₂, hread₃, hread₄, hread₅]
    change Except.ok (Query.mk (if cs.isEmpty then none else some ⟨isRecursive, named⟩) _ _ _ _ _) = _
    rw [hread₀]
    rfl
  · intro hopens
    cases withClause with
    | some w =>
      rw [hwithKey rfl]
      exact List.mem_cons_of_mem _ List.mem_cons_self
    | none =>
      rw [hnoWith rfl, List.nil_append, hselect (by simpa [Query.opensWithWord] using hopens)]
      exact List.mem_cons_self

end SqlLayout.Layout
