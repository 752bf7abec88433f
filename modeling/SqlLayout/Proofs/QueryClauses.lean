import SqlLayout.Proofs.Queries
import SqlLayout.Sql.Parser
import Mathlib.Data.List.Forall2

/-!
What becomes of the clauses of a query. The queries of a tree are those of what was read, one by one,
and each carries the clauses that stood around it. Two clauses get lost: the table that a named query
is read from, and what follows the plain rows of an `INSERT`.
-/

namespace SqlLayout.Layout

/-- The queries of a tree are the layouts of those in what was read, one by one. -/
abbrev Follows : List Sql.Query → List Query → Prop :=
  List.Forall₂ fun q p => Query.ofSql q = .ok p

/-- A computation that gives a result has passed the refusal at its start. -/
theorem refusal_eq_ok {α : Type} {c : Prop} [Decidable c] {what : String} {x : Outcome α} {a : α}
    (h : (if c then refuse (α := PUnit) what >>= fun _ => x else x) = .ok a) :
    ¬ c ∧ x = .ok a := by
  by_cases hc : c
  · rw [if_pos hc] at h
    cases h
  · rw [if_neg hc] at h
    exact ⟨hc, h⟩

/-- What a query with a layout is made of. -/
theorem queryOfSql_eq_ok {q : Sql.Query} {p : Query} (h : Query.ofSql q = .ok p) :
    q.fetch = none ∧ q.forClause = none ∧
    (∃ named, ctesOfSql q.ctes = .ok named ∧
      p.withClause = if q.ctes.isEmpty then none else some ⟨q.isRecursive, named⟩) ∧
    Body.ofSql q.body = .ok p.body ∧ sortOfSql q.orderBy = .ok p.orderBy ∧
    optionOfSql q.limit = .ok p.limit ∧ optionOfSql q.offset = .ok p.offset ∧
    p.locking = q.locks.map Locking.ofSql := by
  obtain ⟨isRecursive, ctes, body, orderBy, limit, offset, unit, fetch, locks, forClause⟩ := q
  simp only [Query.ofSql] at h
  obtain ⟨hfetch, h⟩ := refusal_eq_ok h
  obtain ⟨hfor, h⟩ := refusal_eq_ok h
  obtain ⟨named, hnamed, h⟩ := bind_eq_ok h
  obtain ⟨order, horder, h⟩ := bind_eq_ok h
  obtain ⟨l, hl, h⟩ := bind_eq_ok h
  obtain ⟨o, ho, h⟩ := bind_eq_ok h
  obtain ⟨b, hb, h⟩ := bind_eq_ok h
  cases h
  refine ⟨?_, ?_, ⟨named, hnamed, rfl⟩, hb, horder, hl, ho, rfl⟩
  · simpa using hfetch
  · simpa using hfor

theorem Follows.append {a b : List Sql.Query} {c d : List Query} (h : Follows a c)
    (h' : Follows b d) : Follows (a ++ b) (c ++ d) :=
  List.rel_append h h'

theorem exprQueries_append (a b : List Expr) :
    exprQueries (a ++ b) = exprQueries a ++ exprQueries b := by
  induction a with
  | nil => rfl
  | cons e r ih => simp [exprQueries, ih]

/-- In every place, what an expression becomes holds the layouts of the given queries. -/
structure Reading.Follows (r : Reading) (qs : List Sql.Query) : Prop where
  whole : ∀ e, r.whole = .ok e → Layout.Follows qs e.queries
  bare : ∀ e, r.bare = .ok e → Layout.Follows qs e.queries
  operands : ∀ c es, r.operands c = .ok es → Layout.Follows qs (exprQueries es)

theorem Reading.Follows.same {x : Outcome Expr} {qs : List Sql.Query}
    (h : ∀ e, x = .ok e → Layout.Follows qs e.queries) : (Reading.same x).Follows qs where
  whole := h
  bare := h
  operands c es hes := by
    obtain ⟨e, he, hes⟩ := bind_eq_ok hes
    cases hes
    simpa [exprQueries] using h e he

theorem Reading.Follows.nested {r : Reading} {qs : List Sql.Query} (h : r.Follows qs) :
    r.nested.Follows qs where
  whole e he := by
    obtain ⟨inner, hi, he⟩ := bind_eq_ok he
    cases he
    exact h.whole inner hi
  bare := h.bare
  operands := h.operands

theorem Reading.Follows.chain {c : Connective} {l r : Reading} {a b : List Sql.Query}
    (hl : l.Follows a) (hr : r.Follows b) : (Reading.chain c l r).Follows (a ++ b) := by
  have hargs : ∀ es, (do return (← l.operands c) ++ (← r.operands c)) = Except.ok es →
      Layout.Follows (a ++ b) (exprQueries es) := by
    intro es h
    obtain ⟨ls, hls, h⟩ := bind_eq_ok h
    obtain ⟨rs, hrs, h⟩ := bind_eq_ok h
    cases h
    rw [exprQueries_append]
    exact (hl.operands c ls hls).append (hr.operands c rs hrs)
  have hnode : ∀ e, (Reading.chain c l r).whole = .ok e → Layout.Follows (a ++ b) e.queries := by
    intro e h
    obtain ⟨es, hes, h⟩ := bind_eq_ok h
    cases h
    exact hargs es hes
  constructor
  · exact hnode
  · exact hnode
  · intro c' es h
    simp only [Reading.chain] at h
    split at h
    · exact hargs es h
    · obtain ⟨e, he, h⟩ := bind_eq_ok h
      cases h
      simpa [exprQueries] using hnode e he

theorem ofTest_queries (e : Expr) (negated : Bool) (truth : Sql.Truth) :
    (Expr.ofTest e negated truth).queries = e.queries := by
  cases truth <;> rfl

theorem ofQuantified_queries (k : Sql.Quantifier) (op : String) (l r : Expr) :
    (Expr.ofQuantified k op l r).queries = l.queries ++ r.queries := by
  unfold Expr.ofQuantified
  split <;> simp [Expr.queries, optionQueries]

theorem ofValue_queries (v : Sql.Value) : (Expr.ofValue v).queries = [] := by
  cases v with
  | placeholder t =>
    simp only [Expr.ofValue]
    split <;> rfl
  | _ => rfl

/-- Arguments without names are known by their values. -/
theorem argQueries_positional (args : List Arg)
    (h : (args.filterMap fun | .positional e => some e | .named _ _ _ => none).length = args.length) :
    exprQueries (args.filterMap fun | .positional e => some e | .named _ _ _ => none) =
      argQueries args := by
  induction args with
  | nil => rfl
  | cons a r ih =>
    cases a with
    | positional e =>
      simp only [List.filterMap_cons, List.length_cons, Nat.add_right_cancel_iff] at h
      simp only [List.filterMap_cons, exprQueries, argQueries, ih h]
    | named n s e =>
      have := List.length_filterMap_le
        (fun | Arg.positional e => some e | .named _ _ _ => none) r
      simp only [List.filterMap_cons, List.length_cons] at h
      omega

theorem ofCall_queries (c : Call) : (Expr.ofCall c).queries = c.queries := by
  unfold Expr.ofCall
  split
  · rename_i name heq
    simp only
    split
    · rename_i h
      obtain ⟨n, args, distinct, star, orderBy, group, filter, window⟩ := c
      simp only [Bool.and_eq_true, beq_iff_eq, List.isEmpty_iff, Option.isNone_iff_eq_none,
        Bool.not_eq_eq_eq_not, Bool.not_true] at h
      obtain ⟨⟨⟨⟨⟨⟨⟨-, -⟩, rfl⟩, rfl⟩, rfl⟩, rfl⟩, -⟩, hargs⟩ := h
      simp only [Expr.queries, Call.queries, sortQueries, optionQueries, windowQueries,
        List.append_nil]
      exact argQueries_positional args hargs
    · rfl
  · rfl

/-- What positional arguments become: all of them have a layout and bring their queries, or one has
none. -/
def PositionalFollows (es : List Sql.Expr) : Option (List Arg) → Prop
  | some args =>
    es.all Sql.Expr.isPositional = true ∧ Follows (Sql.exprQueries es) (argQueries args)
  | none => es.all Sql.Expr.isPositional = false

def ArgsFollow (es : List Sql.Expr) : Args → Prop
  | some (args, _) =>
    Sql.argsHaveLayout es = true ∧ Follows (Sql.exprQueries es) (argQueries args)
  | none => Sql.argsHaveLayout es = false

theorem positionalOfSql_cons (e : Sql.Expr) (r : List Sql.Expr) :
    positionalOfSql (e :: r) = if e.isPositional then do
        let e ← (readingOf e).whole
        return (← positionalOfSql r).map (.positional e :: ·)
      else return none := by
  cases e <;> rfl

theorem positional_cons_follows {e : Sql.Expr} {r : List Sql.Expr}
    (he : (readingOf e).Follows e.queries)
    (hr : ∀ xs, positionalOfSql r = .ok xs → PositionalFollows r xs) (xs : Option (List Arg))
    (h : positionalOfSql (e :: r) = .ok xs) : PositionalFollows (e :: r) xs := by
  rw [positionalOfSql_cons] at h
  split at h
  · rename_i hp
    obtain ⟨a, ha, h⟩ := bind_eq_ok h
    obtain ⟨b, hb, h⟩ := bind_eq_ok h
    cases h
    have hrest := hr b hb
    cases b with
    | none => simpa [PositionalFollows, hp] using hrest
    | some args =>
      refine ⟨by simpa [hp] using hrest.1, ?_⟩
      exact (he.whole a ha).append hrest.2
  · rename_i hp
    cases h
    simp [PositionalFollows, hp]

theorem argsOf_follows (es : List Sql.Expr)
    (hes : ∀ xs, positionalOfSql es = .ok xs → PositionalFollows es xs) (xs : Args)
    (h : argsOf es (positionalOfSql es) = .ok xs) : ArgsFollow es xs := by
  unfold argsOf at h
  split at h
  · cases h
    exact ⟨rfl, List.Forall₂.nil⟩
  · rename_i hstar
    have hlayout : Sql.argsHaveLayout es = es.all Sql.Expr.isPositional := by
      unfold Sql.argsHaveLayout
      split
      · exact absurd rfl hstar
      · rfl
    obtain ⟨args, hargs, h⟩ := bind_eq_ok h
    cases h
    have hall := hes args hargs
    cases args with
    | none => exact hlayout.trans hall
    | some list => exact ⟨hlayout.trans hall.1, hall.2⟩

theorem queryCall_follows {name : Sql.ObjectName} {q : Sql.Query}
    (hq : ∀ p, Query.ofSql q = .ok p → Follows q.queries p.queries) :
    (readingOf (.queryCall name q)).Follows (Sql.Expr.queryCall name q).queries := by
  simp only [readingOf, Sql.Expr.queries]
  generalize name.map Sql.Ident.print = words
  match words with
  | [word] =>
    by_cases hword : Text.eqIgnoreCase word "array"
    · simp only [hword, if_true]
      apply Reading.Follows.same
      intro e h
      obtain ⟨p, hp, h⟩ := bind_eq_ok h
      cases h
      exact hq p hp
    · simp only [hword]
      apply Reading.Follows.same
      rintro _ ⟨⟩
      exact List.Forall₂.nil
  | [] =>
    apply Reading.Follows.same
    rintro _ ⟨⟩
    exact List.Forall₂.nil
  | _ :: _ :: _ =>
    apply Reading.Follows.same
    rintro _ ⟨⟩
    exact List.Forall₂.nil

theorem call_follows {name : Sql.ObjectName} {odbc : Bool} {duplicates : Option String}
    {args : List Sql.Expr} {before : List String} {orderBy : List Sql.SortItem}
    {clauses : List String} {withinGroup : List Sql.SortItem} {filter : Option Sql.Expr}
    {nulls : Option String} {window : Sql.Window}
    (horder : ∀ xs, sortOfSql orderBy = .ok xs → Follows (Sql.sortQueries orderBy) (sortQueries xs))
    (hargs : ∀ xs, argsOf args (positionalOfSql args) = .ok xs → ArgsFollow args xs)
    (hwindow : ∀ w, windowOfSql window = .ok w → Follows window.queries (windowQueries w))
    (hgroup : ∀ xs, sortOfSql withinGroup = .ok xs →
      Follows (Sql.sortQueries withinGroup) (sortQueries xs))
    (hfilter : ∀ x, bareOptionOfSql filter = .ok x →
      Follows (Sql.optionQueries filter) (optionQueries x)) :
    (readingOf (.call name odbc duplicates args before orderBy clauses withinGroup filter nulls
        window)).Follows
      (Sql.Expr.call name odbc duplicates args before orderBy clauses withinGroup filter nulls
        window).queries := by
  simp only [readingOf, Sql.Expr.queries]
  apply Reading.Follows.same
  intro e h
  split at h
  · rename_i hv
    cases h
    simp only [hv, Bool.true_or, if_true]
    exact List.Forall₂.nil
  · rename_i hv
    obtain ⟨order, ho, h⟩ := bind_eq_ok h
    split at h
    · rename_i hc
      cases h
      simp only [hc, Bool.or_true, Bool.true_or, if_true]
      exact List.Forall₂.nil
    · rename_i hc
      obtain ⟨parts, hparts, h⟩ := bind_eq_ok h
      have hlist := hargs parts hparts
      split at h
      · cases h
        simp only [ArgsFollow] at hlist
        simp only [hlist, Bool.not_false, Bool.or_true, if_true]
        exact List.Forall₂.nil
      · obtain ⟨hlayout, hlist⟩ := hlist
        obtain ⟨w, hw, h⟩ := bind_eq_ok h
        obtain ⟨group, hg, h⟩ := bind_eq_ok h
        obtain ⟨f, hf, h⟩ := bind_eq_ok h
        cases h
        simp only [hv, hc, hlayout, ofCall_queries, Bool.not_true, Bool.or_false]
        exact (((hlist.append (horder order ho)).append (hgroup group hg)).append
          (hfilter f hf)).append (hwindow w hw)

/-- A target that is not all the columns of a table. -/
theorem targetsOfSql_cons {e : Sql.Expr} (aliasName : Option Sql.Ident) (r : List Sql.Target)
    (h : ∀ names, e ≠ .pathStar names) :
    targetsOfSql (⟨e, aliasName⟩ :: r) = do
      let e ← (readingOf e).whole
      return ⟨e, aliasName.map Sql.Ident.print⟩ :: (← targetsOfSql r) := by
  cases e <;> first | rfl | exact absurd rfl (h _)

theorem target_cons_follows {e : Sql.Expr} {aliasName : Option Sql.Ident} {r : List Sql.Target}
    (he : (readingOf e).Follows e.queries)
    (hr : ∀ xs, targetsOfSql r = .ok xs → Follows (Sql.targetQueries r) (targetQueries xs))
    (xs : List Target) (h : targetsOfSql (⟨e, aliasName⟩ :: r) = .ok xs) :
    Follows (Sql.targetQueries (⟨e, aliasName⟩ :: r)) (targetQueries xs) := by
  by_cases hstar : ∃ names, e = .pathStar names
  · obtain ⟨names, rfl⟩ := hstar
    obtain ⟨b, hb, h⟩ := bind_eq_ok h
    cases h
    exact hr b hb
  · rw [targetsOfSql_cons aliasName r fun names h => hstar ⟨names, h⟩] at h
    obtain ⟨a, ha, h⟩ := bind_eq_ok h
    obtain ⟨b, hb, h⟩ := bind_eq_ok h
    cases h
    exact (he.whole a ha).append (hr b hb)

/-- Exactly a cross join becomes one. -/
theorem joinKind_cross {kind : Sql.JoinKind} {k : JoinKind} (h : JoinKind.ofSql kind = .ok k) :
    (k = .cross) = (kind = .cross) := by
  cases kind <;> cases h <;> simp

mutual

theorem readingOf_follows : (e : Sql.Expr) → (readingOf e).Follows e.queries
  | .ident i => by
    apply Reading.Follows.same
    rintro _ ⟨⟩
    simp only [Expr.ofIdent]
    split <;> exact List.Forall₂.nil
  | .path names => by
    apply Reading.Follows.same
    rintro _ ⟨⟩
    simp only [Expr.ofPath]
    split <;> exact List.Forall₂.nil
  | .star => .same (by rintro _ ⟨⟩; exact List.Forall₂.nil)
  | .pathStar names => .same (by rintro _ ⟨⟩; exact List.Forall₂.nil)
  | .value v => by
    apply Reading.Follows.same
    rintro _ ⟨⟩
    rw [ofValue_queries]
    exact List.Forall₂.nil
  | .binary l .and r => .chain (readingOf_follows l) (readingOf_follows r)
  | .binary l .or r => .chain (readingOf_follows l) (readingOf_follows r)
  | .binary l (.other op) r => by
    apply Reading.Follows.same
    intro e h
    obtain ⟨a, ha, h⟩ := bind_eq_ok h
    obtain ⟨b, hb, h⟩ := bind_eq_ok h
    cases h
    simpa [Sql.Expr.queries, Expr.queries, optionQueries] using
      ((readingOf_follows l).whole a ha).append ((readingOf_follows r).whole b hb)
  | .unary .not e => by
    apply Reading.Follows.same
    intro x h
    obtain ⟨a, ha, h⟩ := bind_eq_ok h
    cases h
    simpa [Sql.Expr.queries, Expr.queries, exprQueries] using (readingOf_follows e).bare a ha
  | .unary .plus e => by
    apply Reading.Follows.same
    intro x h
    obtain ⟨a, ha, h⟩ := bind_eq_ok h
    cases h
    exact (readingOf_follows e).whole a ha
  | .unary .minus e => by
    apply Reading.Follows.same
    intro x h
    obtain ⟨a, ha, h⟩ := bind_eq_ok h
    cases h
    exact (readingOf_follows e).whole a ha
  | .nested e => .nested (readingOf_follows e)
  | .is e negated truth => by
    apply Reading.Follows.same
    intro x h
    obtain ⟨a, ha, h⟩ := bind_eq_ok h
    cases h
    rw [ofTest_queries]
    exact (readingOf_follows e).whole a ha
  | .inList e negated list => by
    apply Reading.Follows.same
    intro x h
    obtain ⟨a, ha, h⟩ := bind_eq_ok h
    obtain ⟨es, hes, h⟩ := bind_eq_ok h
    cases h
    exact ((readingOf_follows e).whole a ha).append (exprsOfSql_follows list es hes)
  | .inQuery e negated q => by
    apply Reading.Follows.same
    intro x h
    obtain ⟨a, ha, h⟩ := bind_eq_ok h
    obtain ⟨p, hp, h⟩ := bind_eq_ok h
    cases h
    exact ((readingOf_follows e).whole a ha).append (queryOfSql_follows q p hp)
  | .between e negated low high => by
    apply Reading.Follows.same
    intro x h
    obtain ⟨a, ha, h⟩ := bind_eq_ok h
    obtain ⟨b, hb, h⟩ := bind_eq_ok h
    obtain ⟨c, hc, h⟩ := bind_eq_ok h
    cases h
    exact (((readingOf_follows e).whole a ha).append ((readingOf_follows low).whole b hb)).append
      ((readingOf_follows high).whole c hc)
  | .quantified l op k r => by
    apply Reading.Follows.same
    intro x h
    obtain ⟨a, ha, h⟩ := bind_eq_ok h
    obtain ⟨b, hb, h⟩ := bind_eq_ok h
    cases h
    rw [ofQuantified_queries]
    exact ((readingOf_follows l).whole a ha).append ((readingOf_follows r).bare b hb)
  | .cast d e type => by
    apply Reading.Follows.same
    intro x h
    obtain ⟨a, ha, h⟩ := bind_eq_ok h
    cases h
    exact (readingOf_follows e).whole a ha
  | .caseOf operand whens otherwise => by
    apply Reading.Follows.same
    intro x h
    obtain ⟨a, ha, h⟩ := bind_eq_ok h
    obtain ⟨ws, hws, h⟩ := bind_eq_ok h
    obtain ⟨o, ho, h⟩ := bind_eq_ok h
    cases h
    exact ((optionOfSql_follows operand a ha).append (whensOfSql_follows whens ws hws)).append
      (optionOfSql_follows otherwise o ho)
  | .existsIn negated q => by
    apply Reading.Follows.same
    intro x h
    obtain ⟨p, hp, h⟩ := bind_eq_ok h
    cases h
    exact queryOfSql_follows q p hp
  | .subquery q => by
    apply Reading.Follows.same
    intro x h
    obtain ⟨p, hp, h⟩ := bind_eq_ok h
    cases h
    exact queryOfSql_follows q p hp
  | .pattern m e negated form escape => by
    apply Reading.Follows.same
    intro x h
    obtain ⟨a, ha, h⟩ := bind_eq_ok h
    obtain ⟨b, hb, h⟩ := bind_eq_ok h
    cases h
    have hescape : optionQueries (escape.map Expr.ofValue) = [] := by
      cases escape with
      | none => rfl
      | some v => exact ofValue_queries v
    simp only [Expr.queries, hescape, List.append_nil]
    exact ((readingOf_follows e).whole a ha).append ((readingOf_follows form).whole b hb)
  | .distinctFrom l negated r => by
    apply Reading.Follows.same
    intro x h
    obtain ⟨a, ha, h⟩ := bind_eq_ok h
    obtain ⟨b, hb, h⟩ := bind_eq_ok h
    cases h
    simpa [Sql.Expr.queries, Expr.queries, optionQueries] using
      ((readingOf_follows l).whole a ha).append ((readingOf_follows r).whole b hb)
  | .array es => by
    apply Reading.Follows.same
    intro x h
    obtain ⟨as, has, h⟩ := bind_eq_ok h
    cases h
    exact exprsOfSql_follows es as has
  | .bareCall name => by
    apply Reading.Follows.same
    rintro _ ⟨⟩
    split
    · split <;> exact List.Forall₂.nil
    · exact List.Forall₂.nil
  | .queryCall name q => queryCall_follows (queryOfSql_follows q)
  | .call name odbc duplicates args before orderBy clauses withinGroup filter nulls window =>
    call_follows (sortOfSql_follows orderBy) (argsOf_follows args (positionalOfSql_follows args))
      (windowOfSql_follows window) (sortOfSql_follows withinGroup) (bareOptionOfSql_follows filter)
  | .namedArg t => .same (by rintro _ ⟨⟩; exact List.Forall₂.nil)
  | .access t => .same (by rintro _ ⟨⟩; exact List.Forall₂.nil)
  | .phrase t => .same (by rintro _ ⟨⟩; exact List.Forall₂.nil)

theorem exprsOfSql_follows : (es : List Sql.Expr) → (xs : List Expr) → exprsOfSql es = .ok xs →
    Follows (Sql.exprQueries es) (exprQueries xs)
  | [], xs, h => by
    cases h
    exact List.Forall₂.nil
  | e :: r, xs, h => by
    simp only [exprsOfSql] at h
    obtain ⟨a, ha, h⟩ := bind_eq_ok h
    obtain ⟨b, hb, h⟩ := bind_eq_ok h
    cases h
    exact ((readingOf_follows e).whole a ha).append (exprsOfSql_follows r b hb)

theorem optionOfSql_follows : (e : Option Sql.Expr) → (x : Option Expr) → optionOfSql e = .ok x →
    Follows (Sql.optionQueries e) (optionQueries x)
  | none, x, h => by
    cases h
    exact List.Forall₂.nil
  | some e, x, h => by
    simp only [optionOfSql] at h
    obtain ⟨a, ha, h⟩ := bind_eq_ok h
    cases h
    exact (readingOf_follows e).whole a ha

theorem bareOptionOfSql_follows : (e : Option Sql.Expr) → (x : Option Expr) →
    bareOptionOfSql e = .ok x → Follows (Sql.optionQueries e) (optionQueries x)
  | none, x, h => by
    cases h
    exact List.Forall₂.nil
  | some e, x, h => by
    simp only [bareOptionOfSql] at h
    obtain ⟨a, ha, h⟩ := bind_eq_ok h
    cases h
    exact (readingOf_follows e).bare a ha

theorem whensOfSql_follows : (ws : List Sql.When) → (xs : List When) → whensOfSql ws = .ok xs →
    Follows (Sql.whenQueries ws) (whenQueries xs)
  | [], xs, h => by
    cases h
    exact List.Forall₂.nil
  | ⟨c, r⟩ :: ws, xs, h => by
    simp only [whensOfSql] at h
    obtain ⟨a, ha, h⟩ := bind_eq_ok h
    obtain ⟨b, hb, h⟩ := bind_eq_ok h
    obtain ⟨rest, hrest, h⟩ := bind_eq_ok h
    cases h
    exact (((readingOf_follows c).whole a ha).append ((readingOf_follows r).whole b hb)).append
      (whensOfSql_follows ws rest hrest)

theorem sortOfSql_follows : (is : List Sql.SortItem) → (xs : List SortItem) → sortOfSql is = .ok xs →
    Follows (Sql.sortQueries is) (sortQueries xs)
  | [], xs, h => by
    cases h
    exact List.Forall₂.nil
  | ⟨e, o⟩ :: r, xs, h => by
    simp only [sortOfSql] at h
    obtain ⟨a, ha, h⟩ := bind_eq_ok h
    obtain ⟨b, hb, h⟩ := bind_eq_ok h
    cases h
    exact ((readingOf_follows e).whole a ha).append (sortOfSql_follows r b hb)

theorem positionalOfSql_follows : (es : List Sql.Expr) → (xs : Option (List Arg)) →
    positionalOfSql es = .ok xs → PositionalFollows es xs
  | [], xs, h => by
    cases h
    exact ⟨rfl, List.Forall₂.nil⟩
  | e :: r, xs, h => by
    have key := positional_cons_follows (readingOf_follows e) (positionalOfSql_follows r)
    exact key xs h

theorem windowOfSql_follows : (w : Sql.Window) → (x : Option Window) → windowOfSql w = .ok x →
    Follows w.queries (windowQueries x)
  | .none, x, h => by
    cases h
    exact List.Forall₂.nil
  | .named _, x, h => by cases h
  | .spec partitionBy orderBy frame, x, h => by
    simp only [windowOfSql] at h
    obtain ⟨a, ha, h⟩ := bind_eq_ok h
    obtain ⟨b, hb, h⟩ := bind_eq_ok h
    cases h
    exact (exprsOfSql_follows partitionBy a ha).append (sortOfSql_follows orderBy b hb)

theorem queryOfSql_follows : (q : Sql.Query) → (p : Query) → Query.ofSql q = .ok p →
    Follows q.queries p.queries
  | ⟨isRecursive, ctes, body, orderBy, limit, offset, unit, fetch, locks, forClause⟩, p, h => by
    obtain ⟨-, -, ⟨named, hnamed, hwith⟩, hbody, horder, hlimit, hoffset, -⟩ := queryOfSql_eq_ok h
    obtain ⟨withClause, b, order, l, o, locking⟩ := p
    cases hwith
    have hctes : Follows (Sql.cteQueries ctes)
        (withQueries (if ctes.isEmpty then none else some ⟨isRecursive, named⟩)) := by
      have hrest := ctesOfSql_follows ctes named hnamed
      cases ctes with
      | nil => exact List.Forall₂.nil
      | cons c r => exact hrest
    refine List.Forall₂.cons h ?_
    exact (((hctes.append (bodyOfSql_follows body b hbody)).append
      (sortOfSql_follows orderBy order horder)).append (optionOfSql_follows limit l hlimit)).append
      (optionOfSql_follows offset o hoffset)

theorem ctesOfSql_follows : (cs : List Sql.Cte) → (xs : List Cte) → ctesOfSql cs = .ok xs →
    Follows (Sql.cteQueries cs) (cteQueries xs)
  | [], xs, h => by
    cases h
    exact List.Forall₂.nil
  | ⟨aliasName, materialized, q, source⟩ :: r, xs, h => by
    simp only [ctesOfSql] at h
    obtain ⟨p, hp, h⟩ := bind_eq_ok h
    obtain ⟨rest, hrest, h⟩ := bind_eq_ok h
    cases h
    exact (queryOfSql_follows q p hp).append (ctesOfSql_follows r rest hrest)

theorem bodyOfSql_follows : (b : Sql.Body) → (x : Body) → Body.ofSql b = .ok x →
    Follows b.queries x.queries
  | .select s, x, h => by
    simp only [Body.ofSql] at h
    split at h
    · cases h
    · obtain ⟨y, hy, h⟩ := bind_eq_ok h
      cases h
      exact selectOfSql_follows s y hy
  | .query q, x, h => by
    simp only [Body.ofSql] at h
    obtain ⟨p, hp, h⟩ := bind_eq_ok h
    cases h
    exact queryOfSql_follows q p hp
  | .setOp l op quantifier r, x, h => by
    simp only [Body.ofSql] at h
    obtain ⟨op', hop, h⟩ := bind_eq_ok h
    obtain ⟨all, hall, h⟩ := bind_eq_ok h
    obtain ⟨a, ha, h⟩ := bind_eq_ok h
    obtain ⟨b, hb, h⟩ := bind_eq_ok h
    cases h
    exact (bodyOfSql_follows l a ha).append (bodyOfSql_follows r b hb)
  | .values explicitRow singular rows, x, h => by
    simp only [Body.ofSql] at h
    obtain ⟨xs, hxs, h⟩ := bind_eq_ok h
    cases h
    exact rowsOfSql_follows rows xs hxs
  | .other text, x, h => by cases h

theorem rowsOfSql_follows : (rows : List (List Sql.Expr)) → (xs : List (List Expr)) →
    rowsOfSql rows = .ok xs → Follows (Sql.rowQueries rows) (rowQueries xs)
  | [], xs, h => by
    cases h
    exact List.Forall₂.nil
  | es :: r, xs, h => by
    simp only [rowsOfSql] at h
    obtain ⟨a, ha, h⟩ := bind_eq_ok h
    obtain ⟨b, hb, h⟩ := bind_eq_ok h
    cases h
    exact (exprsOfSql_follows es a ha).append (rowsOfSql_follows r b hb)

theorem selectOfSql_follows : (s : Sql.Select) → (x : Select) → Select.ofSql s = .ok x →
    Follows s.queries x.queries
  | ⟨distinct, top, targets, into, tables, views, condition, groupBy, groupAll, modifiers, cluster,
      distribute, sort, having, windows, qualify, windowsFirst⟩, x, h => by
    simp only [Select.ofSql] at h
    obtain ⟨d, hd, h⟩ := bind_eq_ok h
    obtain ⟨-, h⟩ := refusal_eq_ok h
    obtain ⟨-, h⟩ := refusal_eq_ok h
    obtain ⟨g, hg, h⟩ := bind_eq_ok h
    obtain ⟨ts, hts, h⟩ := bind_eq_ok h
    obtain ⟨f, hf, h⟩ := bind_eq_ok h
    obtain ⟨w, hw, h⟩ := bind_eq_ok h
    obtain ⟨k, hk, h⟩ := bind_eq_ok h
    cases h
    exact (((((distinctOfSql_follows distinct d hd).append (targetsOfSql_follows targets ts hts)).append
      (fromOfSql_follows tables f hf)).append (bareOptionOfSql_follows condition w hw)).append
      (exprsOfSql_follows groupBy g hg)).append (bareOptionOfSql_follows having k hk)

theorem distinctOfSql_follows : (d : Sql.Distinct) → (x : Option Distinct) →
    distinctOfSql d = .ok x → Follows d.queries (distinctQueries x)
  | .none, x, h => by
    cases h
    exact List.Forall₂.nil
  | .rows, x, h => by
    cases h
    exact List.Forall₂.nil
  | .on es, x, h => by
    simp only [distinctOfSql] at h
    obtain ⟨a, ha, h⟩ := bind_eq_ok h
    cases h
    exact exprsOfSql_follows es a ha

theorem targetsOfSql_follows : (ts : List Sql.Target) → (xs : List Target) →
    targetsOfSql ts = .ok xs → Follows (Sql.targetQueries ts) (targetQueries xs)
  | [], xs, h => by
    cases h
    exact List.Forall₂.nil
  | ⟨e, aliasName⟩ :: r, xs, h =>
    target_cons_follows (readingOf_follows e) (targetsOfSql_follows r) xs h

theorem fromOfSql_follows : (ts : List Sql.Table) → (xs : List FromItem) → fromOfSql ts = .ok xs →
    Follows (Sql.tableQueries ts) (fromQueries xs)
  | [], xs, h => by
    cases h
    exact List.Forall₂.nil
  | t :: r, xs, h => by
    simp only [fromOfSql] at h
    obtain ⟨a, ha, h⟩ := bind_eq_ok h
    obtain ⟨b, hb, h⟩ := bind_eq_ok h
    cases h
    exact (tableOfSql_follows t a ha).append (fromOfSql_follows r b hb)

theorem factorOfSql_follows : (t : Sql.Factor) → (x : FromItem) → FromItem.ofFactor t = .ok x →
    Follows t.queries x.queries
  | .table name aliasName, x, h => by
    cases h
    exact List.Forall₂.nil
  | .function isLateral name args aliasName, x, h => by
    simp only [FromItem.ofFactor] at h
    obtain ⟨parts, hparts, h⟩ := bind_eq_ok h
    have hargs := argsOf_follows args (positionalOfSql_follows args) parts hparts
    simp only [Sql.Factor.queries]
    split at h
    · cases h
      rw [if_pos hargs.1]
      simpa [FromItem.queries, Call.queries, sortQueries, optionQueries, windowQueries] using
        hargs.2
    · cases h
      have hnone : Sql.argsHaveLayout args = false := hargs
      rw [hnone]
      exact List.Forall₂.nil
  | .derived isLateral q aliasName, x, h => by
    simp only [FromItem.ofFactor] at h
    obtain ⟨p, hp, h⟩ := bind_eq_ok h
    cases h
    exact queryOfSql_follows q p hp
  | .phrase t, x, h => by
    cases h
    exact List.Forall₂.nil

theorem tableOfSql_follows : (t : Sql.Table) → (x : FromItem) → FromItem.ofSql t = .ok x →
    Follows t.queries x.queries
  | .factor t, x, h => factorOfSql_follows t x h
  | .joined l isGlobal kind r matching c, x, h => by
    simp only [FromItem.ofSql] at h
    obtain ⟨a, ha, h⟩ := bind_eq_ok h
    obtain ⟨k, hk, h⟩ := bind_eq_ok h
    obtain ⟨⟨natural, condition⟩, hc, h⟩ := bind_eq_ok h
    obtain ⟨b, hb, h⟩ := bind_eq_ok h
    cases h
    simp only [Sql.Table.queries, ← joinKind_cross hk]
    exact ((tableOfSql_follows l a ha).append (factorOfSql_follows r b hb)).append
      (conditionOfSql_follows c k natural condition hc)

theorem conditionOfSql_follows : (c : Sql.Constraint) → (kind : JoinKind) → (natural : Bool) →
    (x : JoinCondition) → conditionOfSql kind c = .ok (natural, x) →
    Follows (if kind = .cross then [] else c.queries) x.queries
  | .on e, kind, natural, x, h => by
    simp only [conditionOfSql] at h
    split at h
    · rename_i hk
      cases h
      rw [if_pos hk]
      exact List.Forall₂.nil
    · rename_i hk
      obtain ⟨a, ha, h⟩ := bind_eq_ok h
      cases h
      rw [if_neg hk]
      exact (readingOf_follows e).bare a ha
  | .byColumns cs, kind, natural, x, h => by
    cases h
    by_cases hk : kind = .cross <;> simp [hk, Sql.Constraint.queries, JoinCondition.queries]
  | .natural, kind, natural, x, h => by
    cases h
    simp [Sql.Constraint.queries, JoinCondition.queries]
  | .none, kind, natural, x, h => by
    cases h
    simp [Sql.Constraint.queries, JoinCondition.queries]

end

/-! ### The clauses of a query -/

/-- A named query stands for the one that was read. -/
structure Cte.Carries (c : Sql.Cte) (d : Cte) : Prop where
  name : d.name = aliasText c.aliasName
  materialized : d.materialized =
    c.materialized.map fun m => if m then "MATERIALIZED" else "NOT MATERIALIZED"
  query : Query.ofSql c.query = .ok d.query
  source : c.source = none

structure SortItem.Carries (i : Sql.SortItem) (j : SortItem) : Prop where
  expr : (readingOf i.expr).whole = .ok j.expr
  direction : j.direction = .ofSql i.options.ascending
  nulls : j.nulls = Nulls.ofSql i.options.nullsFirst

/-- A query carries every clause of the one that was read, and that one has no clause without a
layout. -/
structure Query.Carries (q : Sql.Query) (p : Query) : Prop where
  ctes : List.Forall₂ Cte.Carries q.ctes (match p.withClause with
    | some w => w.ctes
    | none => [])
  isRecursive : ∀ w, p.withClause = some w → w.isRecursive = q.isRecursive
  body : Body.ofSql q.body = .ok p.body
  orderBy : List.Forall₂ SortItem.Carries q.orderBy p.orderBy
  limit : optionOfSql q.limit = .ok p.limit
  offset : optionOfSql q.offset = .ok p.offset
  locking : p.locking = q.locks.map Locking.ofSql
  fetch : q.fetch = none
  forClause : q.forClause = none

theorem ctesOfSql_carries {cs : List Sql.Cte} {ds : List Cte} (h : ctesOfSql cs = .ok ds) :
    List.Forall₂ Cte.Carries cs ds ↔ ∀ c ∈ cs, c.source = none := by
  induction cs generalizing ds with
  | nil =>
    cases h
    simp
  | cons c r ih =>
    obtain ⟨aliasName, materialized, q, source⟩ := c
    obtain ⟨p, hp, h⟩ := bind_eq_ok h
    obtain ⟨rest, hrest, h⟩ := bind_eq_ok h
    cases h
    rw [List.forall₂_cons, ih hrest, List.forall_mem_cons]
    constructor
    · rintro ⟨hc, hr⟩
      exact ⟨hc.source, hr⟩
    · rintro ⟨hc, hr⟩
      exact ⟨⟨rfl, rfl, hp, hc⟩, hr⟩

theorem sortOfSql_carries {is : List Sql.SortItem} {js : List SortItem}
    (h : sortOfSql is = .ok js) : List.Forall₂ SortItem.Carries is js := by
  induction is generalizing js with
  | nil =>
    cases h
    exact List.Forall₂.nil
  | cons i r ih =>
    obtain ⟨expr, options⟩ := i
    obtain ⟨e, he, h⟩ := bind_eq_ok h
    obtain ⟨rest, hrest, h⟩ := bind_eq_ok h
    cases h
    exact List.Forall₂.cons ⟨he, rfl, rfl⟩ (ih hrest)

/-- A query loses nothing but the table that a named query is read from. -/
theorem queryOfSql_carries {q : Sql.Query} {p : Query} (h : Query.ofSql q = .ok p) :
    Query.Carries q p ↔ ∀ c ∈ q.ctes, c.source = none := by
  obtain ⟨hfetch, hfor, ⟨named, hnamed, hwith⟩, hbody, horder, hlimit, hoffset, hlocks⟩ :=
    queryOfSql_eq_ok h
  have hctes : (match p.withClause with | some w => w.ctes | none => []) = named := by
    rw [hwith]
    cases hq : q.ctes with
    | nil =>
      rw [hq] at hnamed
      cases hnamed
      rfl
    | cons c r => rfl
  rw [← ctesOfSql_carries hnamed]
  constructor
  · intro hcarries
    have := hcarries.ctes
    rwa [hctes] at this
  · intro hall
    refine ⟨?_, ?_, hbody, sortOfSql_carries horder, hlimit, hoffset, hlocks, hfetch, hfor⟩
    · rwa [hctes]
    · intro w hw
      rw [hw] at hwith
      split at hwith
      · cases hwith
      · cases hwith
        rfl

theorem Follows.carries {qs : List Sql.Query} {ps : List Query} (h : Follows qs ps) :
    List.Forall₂ Query.Carries qs ps ↔ ∀ q ∈ qs, ∀ c ∈ q.ctes, c.source = none := by
  induction h with
  | nil => simp
  | cons hq hrest ih => rw [List.forall₂_cons, List.forall_mem_cons, queryOfSql_carries hq, ih]

/-! ### Statements -/

theorem assignmentsOfSql_follows {as : List Sql.Assignment} {xs : List Assignment}
    (h : assignmentsOfSql as = .ok xs) :
    Follows (Sql.exprQueries (as.map Sql.Assignment.value))
      (exprQueries (xs.map Assignment.value)) := by
  induction as generalizing xs with
  | nil =>
    cases h
    exact List.Forall₂.nil
  | cons a r ih =>
    rw [assignmentsOfSql, List.mapM_cons] at h
    obtain ⟨x, hx, h⟩ := bind_eq_ok h
    obtain ⟨rest, hrest, h⟩ := bind_eq_ok h
    obtain ⟨v, hv, hx⟩ := bind_eq_ok hx
    cases h
    cases hx
    exact ((readingOf_follows a.value).whole v hv).append (ih hrest)

theorem onConflictOfSql_follows {c : Sql.OnInsert} {x : OnConflict}
    (h : OnConflict.ofSql c = .ok x) : Follows c.queries x.queries := by
  cases c with
  | duplicateKey as => cases h
  | conflict target action =>
    cases action with
    | nothing =>
      cases h
      exact List.Forall₂.nil
    | update as condition =>
      obtain ⟨xs, hxs, h⟩ := bind_eq_ok h
      obtain ⟨w, hw, h⟩ := bind_eq_ok h
      cases h
      exact (assignmentsOfSql_follows hxs).append (bareOptionOfSql_follows condition w hw)

theorem onInsertOfSql_follows {c : Option Sql.OnInsert} {x : Option OnConflict}
    (h : c.mapM OnConflict.ofSql = .ok x) :
    Follows (c.elim [] Sql.OnInsert.queries) (x.elim [] OnConflict.queries) := by
  cases c with
  | none =>
    cases h
    exact List.Forall₂.nil
  | some c =>
    rw [Option.mapM_some] at h
    obtain ⟨y, hy, h⟩ := bind_eq_ok h
    cases h
    exact onConflictOfSql_follows hy

theorem updateOfSql_follows {u : Sql.Update} {x : Update} (h : Update.ofSql u = .ok x) :
    Follows u.queries x.queries := by
  obtain ⟨-, h⟩ := refusal_eq_ok h
  obtain ⟨-, h⟩ := refusal_eq_ok h
  obtain ⟨-, h⟩ := refusal_eq_ok h
  obtain ⟨table, htable, h⟩ := bind_eq_ok h
  obtain ⟨as, has, h⟩ := bind_eq_ok h
  obtain ⟨w, hw, h⟩ := bind_eq_ok h
  obtain ⟨ts, hts, h⟩ := bind_eq_ok h
  cases h
  exact ((assignmentsOfSql_follows has).append (bareOptionOfSql_follows u.condition w hw)).append
    (targetsOfSql_follows _ ts hts)

theorem deleteOfSql_follows {d : Sql.Delete} {x : Delete} (h : Delete.ofSql d = .ok x) :
    Follows d.queries x.queries := by
  obtain ⟨-, h⟩ := refusal_eq_ok h
  obtain ⟨-, h⟩ := refusal_eq_ok h
  obtain ⟨-, h⟩ := refusal_eq_ok h
  obtain ⟨-, h⟩ := refusal_eq_ok h
  split at h
  · obtain ⟨table, htable, h⟩ := bind_eq_ok h
    obtain ⟨w, hw, h⟩ := bind_eq_ok h
    obtain ⟨ts, hts, h⟩ := bind_eq_ok h
    cases h
    exact (bareOptionOfSql_follows d.condition w hw).append (targetsOfSql_follows _ ts hts)
  · cases h

/-- Rows of values around which no clause stands that `INSERT` asks about. -/
def IsPlainRows (q : Sql.Query) : Prop :=
  (∃ explicitRow singular rows, q.body = .values explicitRow singular rows) ∧
    q.ctes = [] ∧ q.orderBy = [] ∧ q.limit = none ∧ q.offset = none

/-- The rows of an `INSERT` are plain rows of values, of which only the rows are looked at, or a query
like any other. -/
theorem insertSourceOfSql_cases {q : Sql.Query} {x : InsertSource}
    (h : InsertSource.ofSql (some q) = .ok x) :
    (IsPlainRows q ∧ ∃ rows, Body.ofSql q.body = .ok (.values rows) ∧ x = .values rows) ∨
    (¬ IsPlainRows q ∧ ∃ p, Query.ofSql q = .ok p ∧ x = .query p) := by
  have hquery : ∀ {y}, (do return InsertSource.query (← Query.ofSql q)) = Except.ok y →
      ∃ p, Query.ofSql q = .ok p ∧ y = .query p := by
    intro y hy
    obtain ⟨p, hp, hy⟩ := bind_eq_ok hy
    cases hy
    exact ⟨p, hp, rfl⟩
  simp only [InsertSource.ofSql] at h
  split at h
  · rename_i explicitRow singular rows hbody
    split at h
    · rename_i hplain
      obtain ⟨xs, hxs, h⟩ := bind_eq_ok h
      cases h
      refine .inl ⟨⟨⟨_, _, _, hbody⟩, by simpa [and_assoc] using hplain⟩, xs, ?_, rfl⟩
      rw [hbody]
      simp only [Body.ofSql, hxs]
      rfl
    · rename_i hplain
      exact .inr ⟨fun hp => hplain (by simpa [and_assoc] using hp.2), hquery h⟩
  · rename_i hbody
    exact .inr ⟨fun hp => by
      obtain ⟨⟨_, _, _, hvalues⟩, -⟩ := hp
      exact hbody _ _ _ hvalues, hquery h⟩

/-- A query of plain rows has only its rows below it. -/
theorem IsPlainRows.queries {q : Sql.Query} (h : IsPlainRows q) :
    q.queries = q :: q.body.queries := by
  obtain ⟨isRecursive, ctes, body, orderBy, limit, offset, unit, fetch, locks, forClause⟩ := q
  obtain ⟨-, hctes, horder, hlimit, hoffset⟩ := h
  cases hctes
  cases horder
  cases hlimit
  cases hoffset
  simp [Sql.Query.queries, Sql.cteQueries, Sql.sortQueries, Sql.optionQueries]

theorem IsPlainRows.carries {q : Sql.Query} {rows : List (List Expr)} (h : IsPlainRows q)
    (hbody : Body.ofSql q.body = .ok (.values rows)) :
    Query.Carries q ⟨none, .values rows, [], none, none, []⟩ ↔
      q.fetch = none ∧ q.locks = [] ∧ q.forClause = none := by
  obtain ⟨-, hctes, horder, hlimit, hoffset⟩ := h
  constructor
  · intro hc
    refine ⟨hc.fetch, ?_, hc.forClause⟩
    simpa using hc.locking.symm
  · rintro ⟨hfetch, hlocks, hfor⟩
    constructor
    · rw [hctes]
      exact List.Forall₂.nil
    · intro w hw
      cases hw
    · exact hbody
    · rw [horder]
      exact List.Forall₂.nil
    · rw [hlimit]
      rfl
    · rw [hoffset]
      rfl
    · rw [hlocks]
      rfl
    · exact hfetch
    · exact hfor

/-- The condition on the rows of an `INSERT` under which they lose no clause. -/
def KeepsRowClauses : Option Sql.Query → Prop
  | some q => IsPlainRows q → q.fetch = none ∧ q.locks = [] ∧ q.forClause = none
  | none => True

theorem insertOfSql_carries {i : Sql.Insert} {x : Insert} (h : Insert.ofSql i = .ok x) :
    List.Forall₂ Query.Carries i.queries x.queries ↔
      (∀ q ∈ i.queries, ∀ c ∈ q.ctes, c.source = none) ∧ KeepsRowClauses i.source := by
  obtain ⟨-, h⟩ := refusal_eq_ok h
  obtain ⟨source, hsource, h⟩ := bind_eq_ok h
  obtain ⟨on, hon, h⟩ := bind_eq_ok h
  obtain ⟨ts, hts, h⟩ := bind_eq_ok h
  cases h
  have hrest := (onInsertOfSql_follows hon).append (targetsOfSql_follows _ ts hts)
  simp only [Sql.Insert.queries, Insert.queries, List.append_assoc]
  cases hq : i.source with
  | none =>
    rw [hq] at hsource
    cases hsource
    simpa [KeepsRowClauses, InsertSource.queries] using hrest.carries
  | some q =>
    rw [hq] at hsource
    obtain ⟨hplain, rows, hbody, rfl⟩ | ⟨hplain, p, hp, rfl⟩ := insertSourceOfSql_cases hsource
    · have htail := (bodyOfSql_follows _ _ hbody).append hrest
      have hctes : ∀ c ∈ q.ctes, c.source = none := by simp [hplain.2.1]
      have hlist : (InsertSource.values rows).queries =
          ⟨none, .values rows, [], none, none, []⟩ :: (Body.values rows).queries := by
        simp [InsertSource.queries, Query.queries, withQueries, sortQueries, optionQueries]
      rw [Option.elim_some, hplain.queries, hlist, List.cons_append, List.cons_append,
        List.forall₂_cons, List.forall_mem_cons, hplain.carries hbody, htail.carries]
      constructor
      · rintro ⟨hclauses, hsources⟩
        exact ⟨⟨hctes, hsources⟩, fun _ => hclauses⟩
      · rintro ⟨⟨-, hsources⟩, hclauses⟩
        exact ⟨hclauses hplain, hsources⟩
    · have hall := (queryOfSql_follows q p hp).append hrest
      simp only [KeepsRowClauses, hplain, false_implies, and_true]
      exact hall.carries

/-- Laying out a statement drops a clause of a query in exactly two places: the table that a named
query is read from, and what follows the plain rows of an `INSERT`. -/
theorem statementOfSql_carries_iff {s : Sql.Statement} {t : Statement}
    (h : Statement.ofSql s = .ok t) :
    List.Forall₂ Query.Carries s.queries t.queries ↔
      (∀ q ∈ s.queries, ∀ c ∈ q.ctes, c.source = none) ∧
      (∀ i, s = .insert i → KeepsRowClauses i.source) := by
  cases s with
  | query q =>
    obtain ⟨p, hp, h⟩ := bind_eq_ok h
    cases h
    simpa [Sql.Statement.queries, Statement.queries] using (queryOfSql_follows q p hp).carries
  | insert i =>
    obtain ⟨x, hx, h⟩ := bind_eq_ok h
    cases h
    simpa [Sql.Statement.queries, Statement.queries] using insertOfSql_carries hx
  | update u =>
    obtain ⟨x, hx, h⟩ := bind_eq_ok h
    cases h
    simpa [Sql.Statement.queries, Statement.queries] using (updateOfSql_follows hx).carries
  | delete d =>
    obtain ⟨x, hx, h⟩ := bind_eq_ok h
    cases h
    simpa [Sql.Statement.queries, Statement.queries] using (deleteOfSql_follows hx).carries
  | command label => cases h

/-- `WITH x AS (VALUES (1)) VALUES (2) ORDER BY a DESC LIMIT 3 FOR UPDATE` keeps all its clauses. -/
theorem statementOfSql_carries_values : ∃ s t, Statement.ofSql s = .ok t ∧ s.queries.length = 2 ∧
    List.Forall₂ Query.Carries s.queries t.queries := by
  let one : Sql.Query :=
    ⟨false, [], .values false false [[.value (.number "1" false)]], [], none, none, "", none, [], none⟩
  let outer : Sql.Query :=
    ⟨false, [⟨⟨true, ⟨"x", none⟩, []⟩, none, one, none⟩],
      .values false false [[.value (.number "2" false)]], [⟨.ident ⟨"a", none⟩, ⟨some false, none⟩⟩],
      some (.value (.number "3" false)), none, "", none, [⟨false, none, none⟩], none⟩
  have hqueries : (Sql.Statement.query outer).queries = [outer, one] := rfl
  refine ⟨.query outer, _, rfl, rfl, (statementOfSql_carries_iff rfl).2 ⟨?_, ?_⟩⟩
  · rw [hqueries]
    simp [outer, one]
  · rintro i ⟨⟩

/-- The statement of a text that has only one, with its tree. -/
def readOne? (text : String) : Option (Sql.Statement × Statement) :=
  match Sql.parse text with
  | .ok [s] =>
    match Statement.ofSql s with
    | .ok t => some (s, t)
    | .error _ => none
  | _ => none

/-- A check of the statement and its tree, by evaluation. -/
theorem exists_of_readOne? (text : String) (p : Sql.Statement → Statement → Bool)
    (h : (readOne? text).any fun x => p x.1 x.2) :
    ∃ s t, Sql.parse text = .ok [s] ∧ Statement.ofSql s = .ok t ∧ p s t := by
  obtain ⟨x, hx, hp⟩ := (Option.any_eq_true _ _).1 h
  unfold readOne? at hx
  split at hx
  · rename_i s hs
    split at hx
    · rename_i t ht
      cases hx
      exact ⟨s, t, hs, ht, hp⟩
    · cases hx
  · cases hx

/-- The clause that ends plain rows of an `INSERT` is lost. -/
theorem insert_loses_fetch : ∃ s t,
    Sql.parse "insert into t values (1) fetch first 1 row only" = .ok [s] ∧
    Statement.ofSql s = .ok t ∧ ¬ List.Forall₂ Query.Carries s.queries t.queries := by
  obtain ⟨s, t, hs, ht, hfetch⟩ := exists_of_readOne? "insert into t values (1) fetch first 1 row only"
    (fun s _ => s.queries.any (·.fetch.isSome)) (by decide +kernel)
  have hnone {qs : List Sql.Query} {ps : List Query} (hc : List.Forall₂ Query.Carries qs ps) :
      ∀ q ∈ qs, q.fetch = none := by
    induction hc with
    | nil => simp
    | cons hq _ ih => exact List.forall_mem_cons.2 ⟨hq.fetch, ih⟩
  refine ⟨s, t, hs, ht, fun hc => ?_⟩
  obtain ⟨q, hq, hsome⟩ := List.any_eq_true.1 hfetch
  rw [hnone hc q hq] at hsome
  cases hsome

end SqlLayout.Layout
