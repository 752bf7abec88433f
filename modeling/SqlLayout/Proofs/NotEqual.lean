import SqlLayout.Proofs.Comparisons
import SqlLayout.Proofs.Soundness

/-!
The operators of comparisons as they are read and as they are written. Each comparison of a script is
written once, and in one of two ways: where its right side is a query, in any number of parentheses, the
operator is written as it was read, and everywhere else it has one spelling.
-/

namespace SqlLayout.Sql

open Layout (Comparison)

/-- A query, in parentheses or not. -/
def Expr.isRows : Expr → Bool
  | .nested e => e.isRows
  | .subquery _ => true
  | _ => false

/-- A select without targets, which is not laid out. -/
def Body.isBlank : Body → Bool
  | .select x => x.targets.isEmpty
  | _ => false

mutual

/-- The comparisons of an expression that have a layout of their own. -/
def Expr.comparisons : Expr → List Comparison
  | .binary l .and r => l.comparisons ++ r.comparisons
  | .binary l .or r => l.comparisons ++ r.comparisons
  | .binary l (.other op) r => l.comparisons ++ [⟨op, false⟩] ++ r.comparisons
  | .unary _ e => e.comparisons
  | .nested e => e.comparisons
  | .is e _ _ => e.comparisons
  | .inList e _ list => e.comparisons ++ exprComparisons list
  | .inQuery e _ q => e.comparisons ++ q.comparisons
  | .between e _ low high => e.comparisons ++ low.comparisons ++ high.comparisons
  | .quantified l op _ r => l.comparisons ++ [⟨op, r.isRows⟩] ++ r.comparisons
  | .cast _ e _ => e.comparisons
  | .caseOf operand whens otherwise =>
    optionComparisons operand ++ whenComparisons whens ++ optionComparisons otherwise
  | .existsIn _ q => q.comparisons
  | .subquery q => q.comparisons
  | .pattern m e negated form _ =>
    e.comparisons ++ [⟨notWord negated ++ m.print, false⟩] ++ form.comparisons
  | .distinctFrom l negated r =>
    l.comparisons ++ [⟨if negated then "IS NOT DISTINCT FROM" else "IS DISTINCT FROM", false⟩] ++
      r.comparisons
  | .array es => exprComparisons es
  | .queryCall name q =>
    match name.map Ident.print with
    | [word] => if Text.eqIgnoreCase word "array" then q.comparisons else []
    | _ => []
  | .call _ odbc _ args before orderBy clauses withinGroup filter nulls window =>
    if odbc || nulls.isSome || !before.isEmpty || !clauses.isEmpty || !argsHaveLayout args then []
    else exprComparisons args ++ sortComparisons orderBy ++ sortComparisons withinGroup ++
      optionComparisons filter ++ window.comparisons
  | _ => []

def exprComparisons : List Expr → List Comparison
  | [] => []
  | e :: r => e.comparisons ++ exprComparisons r

def optionComparisons : Option Expr → List Comparison
  | none => []
  | some e => e.comparisons

def whenComparisons : List When → List Comparison
  | [] => []
  | ⟨c, r⟩ :: ws => c.comparisons ++ r.comparisons ++ whenComparisons ws

def sortComparisons : List SortItem → List Comparison
  | [] => []
  | ⟨e, _⟩ :: r => e.comparisons ++ sortComparisons r

def Window.comparisons : Window → List Comparison
  | .spec partitionBy orderBy _ => exprComparisons partitionBy ++ sortComparisons orderBy
  | _ => []

def Query.comparisons : Query → List Comparison
  | ⟨_, ctes, body, orderBy, limit, offset, _, _, _, _⟩ =>
    if body.isBlank then []
    else
      cteComparisons ctes ++ body.comparisons ++ sortComparisons orderBy ++ optionComparisons limit ++
        optionComparisons offset

def cteComparisons : List Cte → List Comparison
  | [] => []
  | ⟨_, _, q, _⟩ :: r => q.comparisons ++ cteComparisons r

def Body.comparisons : Body → List Comparison
  | .select x => x.comparisons
  | .query q => q.comparisons
  | .setOp l _ _ r => l.comparisons ++ r.comparisons
  | .values _ _ rows => rowComparisons rows
  | .other _ => []

def rowComparisons : List (List Expr) → List Comparison
  | [] => []
  | es :: r => exprComparisons es ++ rowComparisons r

def Select.comparisons : Select → List Comparison
  | ⟨distinct, _, targets, _, tables, _, condition, groupBy, _, _, _, _, _, having, _, _, _⟩ =>
    if targets.isEmpty then []
    else
      distinct.comparisons ++ targetComparisons targets ++ tableComparisons tables ++
        optionComparisons condition ++ exprComparisons groupBy ++ optionComparisons having

def Distinct.comparisons : Distinct → List Comparison
  | .on es => exprComparisons es
  | _ => []

def targetComparisons : List Target → List Comparison
  | [] => []
  | ⟨e, _⟩ :: r => e.comparisons ++ targetComparisons r

def tableComparisons : List Table → List Comparison
  | [] => []
  | t :: r => t.comparisons ++ tableComparisons r

def Factor.comparisons : Factor → List Comparison
  | .function _ _ args _ => if argsHaveLayout args then exprComparisons args else []
  | .derived _ q _ => q.comparisons
  | _ => []

def Table.comparisons : Table → List Comparison
  | .factor t => t.comparisons
  | .joined l _ kind r _ c =>
    l.comparisons ++ r.comparisons ++ (if kind = .cross then [] else c.comparisons)

def Constraint.comparisons : Constraint → List Comparison
  | .on e => e.comparisons
  | _ => []

end

def OnInsert.comparisons : OnInsert → List Comparison
  | .conflict _ (.update as condition) =>
    exprComparisons (as.map Assignment.value) ++ optionComparisons condition
  | _ => []

/-- The comparisons of a statement that have a layout of their own. -/
def Statement.comparisons : Statement → List Comparison
  | .query q => q.comparisons
  | .insert i =>
    i.source.elim [] Query.comparisons ++ i.on.elim [] OnInsert.comparisons ++
      targetComparisons (i.returning.getD [])
  | .update u =>
    exprComparisons (u.assignments.map Assignment.value) ++ optionComparisons u.condition ++
      targetComparisons (u.returning.getD [])
  | .delete d => optionComparisons d.condition ++ targetComparisons (d.returning.getD [])
  | .command _ => []

end SqlLayout.Sql

namespace SqlLayout.Layout

/-- A query that stands for its value. -/
def Expr.isRows : Expr → Bool
  | .link .scalar none none false _ => true
  | _ => false

theorem exprComparisons_append (a b : List Expr) :
    exprComparisons (a ++ b) = exprComparisons a ++ exprComparisons b := by
  induction a with
  | nil => rfl
  | cons e r ih => simp [exprComparisons, ih]

theorem ofTest_comparisons (e : Expr) (negated : Bool) (truth : Sql.Truth) :
    (Expr.ofTest e negated truth).comparisons = e.comparisons := by
  cases truth <;> rfl

theorem ofTest_isRows (e : Expr) (negated : Bool) (truth : Sql.Truth) :
    (Expr.ofTest e negated truth).isRows = false := by
  cases truth <;> rfl

/-- With the rows of a query is compared where the right side is one. -/
theorem ofQuantified_comparisons (k : Sql.Quantifier) (op : String) (l r : Expr) :
    (Expr.ofQuantified k op l r).comparisons = l.comparisons ++ [⟨op, r.isRows⟩] ++ r.comparisons := by
  unfold Expr.ofQuantified
  split
  · simp [Expr.comparisons, testComparisons, Expr.isRows]
  · rename_i hnot
    have hrows : r.isRows = false := by
      unfold Expr.isRows
      split
      · exact absurd rfl (hnot _)
      · rfl
    simp [Expr.comparisons, optionComparisons, hrows]

theorem ofQuantified_isRows (k : Sql.Quantifier) (op : String) (l r : Expr) :
    (Expr.ofQuantified k op l r).isRows = false := by
  unfold Expr.ofQuantified
  split <;> simp [Expr.isRows]

/-- An expression without comparisons that is no query. -/
def Expr.IsPlain (e : Expr) : Prop :=
  e.comparisons = [] ∧ e.isRows = false

theorem ofValue_isPlain (v : Sql.Value) : (Expr.ofValue v).IsPlain := by
  cases v with
  | placeholder t =>
    simp only [Expr.ofValue]
    split <;> exact ⟨rfl, rfl⟩
  | _ => exact ⟨rfl, rfl⟩

theorem ofIdent_isPlain (i : Sql.Ident) : (Expr.ofIdent i).IsPlain := by
  unfold Expr.ofIdent
  split <;> exact ⟨rfl, rfl⟩

theorem ofPath_isPlain (names : List Sql.Ident) : (Expr.ofPath names).IsPlain := by
  unfold Expr.ofPath
  split <;> exact ⟨rfl, rfl⟩

theorem argComparisons_positional {args : List Arg}
    (h : (args.filterMap fun | .positional e => some e | .named _ _ _ => none).length = args.length) :
    exprComparisons (args.filterMap fun | .positional e => some e | .named _ _ _ => none) =
      argComparisons args := by
  induction args with
  | nil => rfl
  | cons a r ih =>
    cases a with
    | positional e =>
      simp only [List.filterMap_cons, List.length_cons, Nat.add_right_cancel_iff] at h
      simp only [List.filterMap_cons, exprComparisons, argComparisons, ih h]
    | named n s e =>
      have hlength := List.length_filterMap_le
        (fun | Arg.positional e => some e | .named _ _ _ => none) r
      simp only [List.filterMap_cons, List.length_cons] at h
      omega

theorem ofCall_comparisons (c : Call) :
    (Expr.ofCall c).comparisons = c.comparisons ∧ (Expr.ofCall c).isRows = false := by
  unfold Expr.ofCall
  split
  · dsimp only
    split
    · rename_i h
      obtain ⟨name, args, distinct, star, orderBy, group, filter, window⟩ := c
      simp only [Bool.and_eq_true, beq_iff_eq, List.isEmpty_iff, Option.isNone_iff_eq_none,
        Bool.not_eq_eq_eq_not, Bool.not_true] at h
      obtain ⟨⟨⟨⟨⟨⟨⟨-, rfl⟩, rfl⟩, rfl⟩, rfl⟩, rfl⟩, -⟩, hargs⟩ := h
      refine ⟨?_, rfl⟩
      simp only [Expr.comparisons, Call.comparisons, sortComparisons, optionComparisons,
        windowComparisons, Bool.false_eq_true, if_false, List.append_nil]
      exact argComparisons_positional hargs
    · exact ⟨rfl, rfl⟩
  · exact ⟨rfl, rfl⟩

/-- In every place, what an expression becomes has the given comparisons; without the parentheses around
it, it is a query or not. -/
structure Reading.Compares (r : Reading) (cs : List Comparison) (isRows : Bool) : Prop where
  whole : Yields (fun e => e.comparisons = cs) r.whole
  bare : Yields (fun e => e.comparisons = cs ∧ e.isRows = isRows) r.bare
  operands : ∀ c, Yields (fun es => exprComparisons es = cs) (r.operands c)

namespace Reading.Compares

variable {r r' : Reading} {cs cs' : List Comparison} {isRows isRows' : Bool}

theorem same {x : Outcome Expr} (h : Yields (fun e => e.comparisons = cs ∧ e.isRows = isRows) x) :
    (Reading.same x).Compares cs isRows where
  whole := h.mono fun _ he => he.1
  bare := h
  operands _ := h.bind fun e he => .pure (by simpa [exprComparisons] using he.1)

theorem nested (h : r.Compares cs isRows) : r.nested.Compares cs isRows where
  whole := h.whole.bind fun _ he => .pure he
  bare := h.bare
  operands := h.operands

theorem chain {c : Connective} (hc : c ≠ .not) (h : r.Compares cs isRows) (h' : r'.Compares cs' isRows') :
    (Reading.chain c r r').Compares (cs ++ cs') false := by
  have hargs : Yields (fun es => exprComparisons es = cs ++ cs')
      (do return (← r.operands c) ++ (← r'.operands c)) :=
    (h.operands c).bind fun ls hls => (h'.operands c).bind fun rs hrs => .pure (by
      rw [exprComparisons_append, hls, hrs])
  have hnode : Yields (fun e => e.comparisons = cs ++ cs' ∧ e.isRows = false)
      (Reading.chain c r r').whole :=
    hargs.bind fun es hes => .pure (by
      cases c with
      | not => exact absurd rfl hc
      | and | or => exact ⟨hes, rfl⟩)
  refine ⟨hnode.mono fun _ he => he.1, hnode, fun c' => ?_⟩
  simp only [Reading.chain]
  refine .ite (fun heq => heq ▸ hargs) fun _ => hnode.bind fun e he => .pure ?_
  simpa [exprComparisons] using he.1

end Reading.Compares

/-- What positional arguments become: all of them have a layout and bring their comparisons, or one has
none. -/
def PositionalCompares (es : List Sql.Expr) : Option (List Arg) → Prop
  | some args =>
    es.all Sql.Expr.isPositional = true ∧ argComparisons args = Sql.exprComparisons es
  | none => es.all Sql.Expr.isPositional = false

/-- A star stands alone and brings none. -/
def ArgsCompare (es : List Sql.Expr) : Args → Prop
  | some (args, star) =>
    Sql.argsHaveLayout es = true ∧
      (if star then [] else argComparisons args) = Sql.exprComparisons es
  | none => Sql.argsHaveLayout es = false

theorem positional_cons_compares {e : Sql.Expr} {r : List Sql.Expr} {isRows : Bool}
    (he : (readingOf e).Compares e.comparisons isRows)
    (hr : Yields (PositionalCompares r) (positionalOfSql r)) :
    Yields (PositionalCompares (e :: r)) (positionalOfSql (e :: r)) := by
  rw [positionalOfSql_cons]
  refine .ite (fun hp => he.whole.bind fun a ha => hr.bind fun x hx => .pure ?_)
    fun hp => .pure (by simp [PositionalCompares, hp])
  cases x with
  | none => simpa [PositionalCompares, hp] using hx
  | some args =>
    refine ⟨by simpa [hp] using hx.1, ?_⟩
    rw [argComparisons, Sql.exprComparisons, ha, hx.2]

theorem argsOf_compares {es : List Sql.Expr}
    (hes : Yields (PositionalCompares es) (positionalOfSql es)) :
    Yields (ArgsCompare es) (argsOf es (positionalOfSql es)) := by
  unfold argsOf
  split
  · exact .pure ⟨rfl, rfl⟩
  · rename_i hstar
    have hlayout : Sql.argsHaveLayout es = es.all Sql.Expr.isPositional := by
      unfold Sql.argsHaveLayout
      split
      · exact absurd rfl hstar
      · rfl
    refine hes.bind fun x hx => .pure ?_
    cases x with
    | none => exact hlayout.trans hx
    | some args => exact ⟨hlayout.trans hx.1, hx.2⟩

theorem queryCall_compares {name : Sql.ObjectName} {q : Sql.Query}
    (hq : Yields (fun p => p.comparisons = q.comparisons) (Query.ofSql q)) :
    (readingOf (.queryCall name q)).Compares (Sql.Expr.queryCall name q).comparisons false := by
  simp only [readingOf, Sql.Expr.comparisons]
  have htext (t : String) : (Reading.same (return .verbatim t)).Compares [] false :=
    .same (.pure ⟨rfl, rfl⟩)
  generalize name.map Sql.Ident.print = words
  cases words with
  | nil => exact htext _
  | cons word r =>
    cases r with
    | cons => exact htext _
    | nil =>
      by_cases hword : Text.eqIgnoreCase word "array"
      · simp only [hword, if_true]
        exact .same (hq.bind fun p hp => .pure ⟨hp, rfl⟩)
      · simp only [hword]
        exact htext _

theorem call_compares_read {name : Sql.ObjectName} {odbc : Bool} {duplicates : Option String}
    {args : List Sql.Expr} {before : List String} {orderBy : List Sql.SortItem}
    {clauses : List String} {withinGroup : List Sql.SortItem} {filter : Option Sql.Expr}
    {nulls : Option String} {window : Sql.Window}
    (horder : Yields (fun xs => sortComparisons xs = Sql.sortComparisons orderBy) (sortOfSql orderBy))
    (hargs : Yields (ArgsCompare args) (argsOf args (positionalOfSql args)))
    (hwindow : Yields (fun w => windowComparisons w = window.comparisons) (windowOfSql window))
    (hgroup : Yields (fun xs => sortComparisons xs = Sql.sortComparisons withinGroup)
      (sortOfSql withinGroup))
    (hfilter : Yields (fun x => optionComparisons x = Sql.optionComparisons filter)
      (bareOptionOfSql filter)) :
    (readingOf (.call name odbc duplicates args before orderBy clauses withinGroup filter nulls
        window)).Compares
      (Sql.Expr.call name odbc duplicates args before orderBy clauses withinGroup filter nulls
        window).comparisons false := by
  simp only [readingOf, Sql.Expr.comparisons]
  refine .same (.ite (fun hv => .pure ⟨?_, rfl⟩) fun hv => horder.bind fun order ho =>
    .ite (fun hc => .pure ⟨?_, rfl⟩) fun hc => hargs.bind fun parts hparts => ?_)
  · simp only [hv, Bool.true_or, if_true]
    rfl
  · simp only [hc, Bool.or_true, Bool.true_or, if_true]
    rfl
  · cases parts with
    | none =>
      have hlayout : Sql.argsHaveLayout args = false := hparts
      refine .pure ⟨?_, rfl⟩
      simp only [hlayout, Bool.not_false, Bool.or_true, if_true]
      rfl
    | some part =>
      obtain ⟨list, star⟩ := part
      obtain ⟨hlayout, hlist⟩ := hparts
      refine hwindow.bind fun w hw => hgroup.bind fun group hg => hfilter.bind fun f hf => .pure ?_
      refine ⟨(ofCall_comparisons _).1.trans ?_, (ofCall_comparisons _).2⟩
      simp only [Call.comparisons, hlist, ho, hg, hf, hw, hv, hc, hlayout, Bool.not_true,
        Bool.or_false]
      rfl

theorem target_cons_compares {e : Sql.Expr} {aliasName : Option Sql.Ident} {r : List Sql.Target}
    {isRows : Bool} (he : (readingOf e).Compares e.comparisons isRows)
    (hr : Yields (fun xs => targetComparisons xs = Sql.targetComparisons r) (targetsOfSql r)) :
    Yields (fun xs => targetComparisons xs = Sql.targetComparisons (⟨e, aliasName⟩ :: r) ∧
      xs.isEmpty = false) (targetsOfSql (⟨e, aliasName⟩ :: r)) := by
  by_cases hstar : ∃ names, e = .pathStar names
  · obtain ⟨names, rfl⟩ := hstar
    exact hr.bind fun xs hxs => .pure ⟨hxs, rfl⟩
  · rw [targetsOfSql_cons aliasName r fun names h => hstar ⟨names, h⟩]
    exact he.whole.bind fun a ha => hr.bind fun xs hxs => .pure ⟨congrArg₂ (· ++ ·) ha hxs, rfl⟩

mutual

theorem readingOf_compares : (e : Sql.Expr) → (readingOf e).Compares e.comparisons e.isRows
  | .ident i => .same (.pure (ofIdent_isPlain i))
  | .path names => .same (.pure (ofPath_isPlain names))
  | .star | .pathStar _ | .namedArg _ | .access _ | .phrase _ => .same (.pure ⟨rfl, rfl⟩)
  | .value v => .same (.pure (ofValue_isPlain v))
  | .binary l .and r => .chain nofun (readingOf_compares l) (readingOf_compares r)
  | .binary l .or r => .chain nofun (readingOf_compares l) (readingOf_compares r)
  | .binary l (.other op) r =>
    .same <| (readingOf_compares l).whole.bind fun _ ha => (readingOf_compares r).whole.bind fun _ hb =>
      .pure ⟨by simp [Expr.comparisons, Sql.Expr.comparisons, optionComparisons, ha, hb], rfl⟩
  | .unary .not e => .same <| (readingOf_compares e).bare.bind fun _ ha => .pure ⟨ha.1, rfl⟩
  | .unary .plus e => .same <| (readingOf_compares e).whole.bind fun _ ha => .pure ⟨ha, rfl⟩
  | .unary .minus e => .same <| (readingOf_compares e).whole.bind fun _ ha => .pure ⟨ha, rfl⟩
  | .nested e => (readingOf_compares e).nested
  | .is e negated truth =>
    .same <| (readingOf_compares e).whole.bind fun _ ha => .pure
      ⟨(ofTest_comparisons _ negated truth).trans ha, ofTest_isRows _ negated truth⟩
  | .inList e _ list =>
    .same <| (readingOf_compares e).whole.bind fun _ ha => (exprsOfSql_compares list).bind fun _ hb =>
      .pure ⟨congrArg₂ (· ++ ·) ha hb, rfl⟩
  | .inQuery e _ q =>
    .same <| (readingOf_compares e).whole.bind fun _ ha => (queryOfSql_compares q).bind fun _ hq =>
      .pure ⟨by simp [Expr.comparisons, Sql.Expr.comparisons, testComparisons, ha, hq], rfl⟩
  | .between e _ low high =>
    .same <| (readingOf_compares e).whole.bind fun _ ha => (readingOf_compares low).whole.bind fun _ hb =>
      (readingOf_compares high).whole.bind fun _ hc =>
      .pure ⟨congrArg₂ (· ++ ·) (congrArg₂ (· ++ ·) ha hb) hc, rfl⟩
  | .quantified l op k r =>
    .same <| (readingOf_compares l).whole.bind fun _ ha => (readingOf_compares r).bare.bind fun _ hb =>
      .pure ⟨by rw [ofQuantified_comparisons, ha, hb.1, hb.2, Sql.Expr.comparisons],
        ofQuantified_isRows k op _ _⟩
  | .cast _ e _ => .same <| (readingOf_compares e).whole.bind fun _ ha => .pure ⟨ha, rfl⟩
  | .caseOf operand whens otherwise =>
    .same <| (optionOfSql_compares operand).bind fun _ ha => (whensOfSql_compares whens).bind fun _ hb =>
      (optionOfSql_compares otherwise).bind fun _ hc =>
      .pure ⟨congrArg₂ (· ++ ·) (congrArg₂ (· ++ ·) ha hb) hc, rfl⟩
  | .existsIn _ q => .same <| (queryOfSql_compares q).bind fun _ hq => .pure ⟨hq, rfl⟩
  | .subquery q => .same <| (queryOfSql_compares q).bind fun _ hq => .pure ⟨hq, rfl⟩
  | .pattern m e negated form escape =>
    .same <| (readingOf_compares e).whole.bind fun _ ha => (readingOf_compares form).whole.bind fun _ hb =>
      .pure ⟨by
        have hescape : optionComparisons (escape.map Expr.ofValue) = [] := by
          cases escape with
          | none => rfl
          | some v => exact (ofValue_isPlain v).1
        simp [Expr.comparisons, Sql.Expr.comparisons, matchingText, ha, hb, hescape], rfl⟩
  | .distinctFrom l _ r =>
    .same <| (readingOf_compares l).whole.bind fun _ ha => (readingOf_compares r).whole.bind fun _ hb =>
      .pure ⟨by simp [Expr.comparisons, Sql.Expr.comparisons, optionComparisons, ha, hb], rfl⟩
  | .array es => .same <| (exprsOfSql_compares es).bind fun _ hes => .pure ⟨hes, rfl⟩
  | .bareCall name => .same (.pure (by
      split
      · split <;> exact ⟨rfl, rfl⟩
      · exact ⟨rfl, rfl⟩))
  | .queryCall _ q => queryCall_compares (queryOfSql_compares q)
  | .call _ _ _ args _ orderBy _ withinGroup filter _ window =>
    call_compares_read (sortOfSql_compares orderBy) (argsOf_compares (positionalOfSql_compares args))
      (windowOfSql_compares window) (sortOfSql_compares withinGroup) (bareOptionOfSql_compares filter)

theorem exprsOfSql_compares : (es : List Sql.Expr) →
    Yields (fun xs => exprComparisons xs = Sql.exprComparisons es) (exprsOfSql es)
  | [] => .pure rfl
  | e :: r =>
    (readingOf_compares e).whole.bind fun _ ha => (exprsOfSql_compares r).bind fun _ hb =>
      .pure (congrArg₂ (· ++ ·) ha hb)

theorem optionOfSql_compares : (e : Option Sql.Expr) →
    Yields (fun x => optionComparisons x = Sql.optionComparisons e) (optionOfSql e)
  | none => .pure rfl
  | some e => (readingOf_compares e).whole.bind fun _ ha => .pure ha

theorem bareOptionOfSql_compares : (e : Option Sql.Expr) →
    Yields (fun x => optionComparisons x = Sql.optionComparisons e) (bareOptionOfSql e)
  | none => .pure rfl
  | some e => (readingOf_compares e).bare.bind fun _ ha => .pure ha.1

theorem whensOfSql_compares : (ws : List Sql.When) →
    Yields (fun xs => whenComparisons xs = Sql.whenComparisons ws) (whensOfSql ws)
  | [] => .pure rfl
  | ⟨c, r⟩ :: ws =>
    (readingOf_compares c).whole.bind fun _ ha => (readingOf_compares r).whole.bind fun _ hb =>
      (whensOfSql_compares ws).bind fun _ hrest =>
      .pure (congrArg₂ (· ++ ·) (congrArg₂ (· ++ ·) ha hb) hrest)

theorem sortOfSql_compares : (is : List Sql.SortItem) →
    Yields (fun xs => sortComparisons xs = Sql.sortComparisons is) (sortOfSql is)
  | [] => .pure rfl
  | ⟨e, _⟩ :: r =>
    (readingOf_compares e).whole.bind fun _ ha => (sortOfSql_compares r).bind fun _ hb =>
      .pure (congrArg₂ (· ++ ·) ha hb)

theorem positionalOfSql_compares : (es : List Sql.Expr) →
    Yields (PositionalCompares es) (positionalOfSql es)
  | [] => .pure ⟨rfl, rfl⟩
  | e :: r => positional_cons_compares (readingOf_compares e) (positionalOfSql_compares r)

theorem windowOfSql_compares : (w : Sql.Window) →
    Yields (fun x => windowComparisons x = w.comparisons) (windowOfSql w)
  | .none => .pure rfl
  | .named _ => .throw
  | .spec partitionBy orderBy _ =>
    (exprsOfSql_compares partitionBy).bind fun _ ha => (sortOfSql_compares orderBy).bind fun _ hb =>
      .pure (congrArg₂ (· ++ ·) ha hb)

theorem queryOfSql_compares : (q : Sql.Query) →
    Yields (fun p => p.comparisons = q.comparisons) (Query.ofSql q)
  | ⟨_, ctes, body, orderBy, limit, offset, _, _, _, _⟩ =>
    .refusal <| .refusal <| (ctesOfSql_compares ctes).bind fun named hctes =>
      (sortOfSql_compares orderBy).bind fun _ horder => (optionOfSql_compares limit).bind fun _ hlimit =>
      (optionOfSql_compares offset).bind fun _ hoffset => (bodyOfSql_compares body).bind fun _ hbody =>
      .pure (by
        have hwith (isRecursive : Bool) :
            withComparisons (if ctes.isEmpty then none else some ⟨isRecursive, named⟩) =
              Sql.cteComparisons ctes := by
          cases ctes with
          | nil => rfl
          | cons c r => exact hctes
        simp only [Query.comparisons, Sql.Query.comparisons, hwith, horder, hlimit, hoffset, hbody.1,
          hbody.2])

theorem ctesOfSql_compares : (cs : List Sql.Cte) →
    Yields (fun xs => cteComparisons xs = Sql.cteComparisons cs) (ctesOfSql cs)
  | [] => .pure rfl
  | ⟨_, _, q, _⟩ :: r =>
    (queryOfSql_compares q).bind fun _ hq => (ctesOfSql_compares r).bind fun _ hr =>
      .pure (congrArg₂ (· ++ ·) hq hr)

theorem bodyOfSql_compares : (b : Sql.Body) →
    Yields (fun x => x.comparisons = b.comparisons ∧ x.isBlank = b.isBlank) (Body.ofSql b)
  | .select x => by
    simp only [Body.ofSql]
    split
    · exact fun _ h => nomatch h
    · exact (selectOfSql_compares x).bind fun _ hx => .pure hx
  | .query q => (queryOfSql_compares q).bind fun _ hq => .pure ⟨hq, rfl⟩
  | .setOp l _ _ r =>
    .bind' fun _ => .bind' fun _ => (bodyOfSql_compares l).bind fun _ hl =>
      (bodyOfSql_compares r).bind fun _ hr => .pure ⟨congrArg₂ (· ++ ·) hl.1 hr.1, rfl⟩
  | .values _ _ rows => (rowsOfSql_compares rows).bind fun _ hrows => .pure ⟨hrows, rfl⟩
  | .other _ => .throw

theorem rowsOfSql_compares : (rows : List (List Sql.Expr)) →
    Yields (fun xs => rowComparisons xs = Sql.rowComparisons rows) (rowsOfSql rows)
  | [] => .pure rfl
  | es :: r =>
    (exprsOfSql_compares es).bind fun _ hes => (rowsOfSql_compares r).bind fun _ hr =>
      .pure (congrArg₂ (· ++ ·) hes hr)

theorem selectOfSql_compares : (x : Sql.Select) →
    Yields (fun y => y.comparisons = x.comparisons ∧ y.targets.isEmpty = x.targets.isEmpty)
      (Select.ofSql x)
  | ⟨distinct, _, targets, _, tables, _, condition, groupBy, _, _, _, _, _, having, _, _, _⟩ =>
    (distinctOfSql_compares distinct).bind fun _ hdistinct => .refusal <| .refusal <|
      (exprsOfSql_compares groupBy).bind fun _ hgroup =>
      (targetsOfSql_compares targets).bind fun _ htargets =>
      (fromOfSql_compares tables).bind fun _ hsource =>
      (bareOptionOfSql_compares condition).bind fun _ hcondition =>
      (bareOptionOfSql_compares having).bind fun _ hhaving => .pure ⟨by
        simp only [Select.comparisons, Sql.Select.comparisons, hdistinct, hgroup, htargets.1, htargets.2,
          hsource, hcondition, hhaving], htargets.2⟩

theorem distinctOfSql_compares : (d : Sql.Distinct) →
    Yields (fun x => distinctComparisons x = d.comparisons) (distinctOfSql d)
  | .none => .pure rfl
  | .rows => .pure rfl
  | .on es => (exprsOfSql_compares es).bind fun _ hes => .pure hes

theorem targetsOfSql_compares : (ts : List Sql.Target) →
    Yields (fun xs => targetComparisons xs = Sql.targetComparisons ts ∧ xs.isEmpty = ts.isEmpty)
      (targetsOfSql ts)
  | [] => .pure ⟨rfl, rfl⟩
  | ⟨e, _⟩ :: r =>
    target_cons_compares (readingOf_compares e) ((targetsOfSql_compares r).mono fun _ h => h.1)

theorem fromOfSql_compares : (ts : List Sql.Table) →
    Yields (fun xs => fromComparisons xs = Sql.tableComparisons ts) (fromOfSql ts)
  | [] => .pure rfl
  | t :: r =>
    (tableOfSql_compares t).bind fun _ ht => (fromOfSql_compares r).bind fun _ hr =>
      .pure (congrArg₂ (· ++ ·) ht hr)

theorem factorOfSql_compares : (t : Sql.Factor) →
    Yields (fun f => f.comparisons = t.comparisons) (FromItem.ofFactor t)
  | .table _ _ => .pure rfl
  | .function _ _ args _ =>
    (argsOf_compares (positionalOfSql_compares args)).bind fun parts hparts => by
      match parts with
      | none =>
        have hlayout : Sql.argsHaveLayout args = false := hparts
        refine .pure ?_
        simp [FromItem.comparisons, Sql.Factor.comparisons, hlayout]
      | some (list, star) =>
        obtain ⟨hlayout, hlist⟩ := hparts
        refine .pure ?_
        simp [FromItem.comparisons, Call.comparisons, Sql.Factor.comparisons, sortComparisons,
          optionComparisons, windowComparisons, hlayout, hlist]
  | .derived _ q _ => (queryOfSql_compares q).bind fun _ hq => .pure hq
  | .phrase _ => .pure rfl

theorem tableOfSql_compares : (t : Sql.Table) →
    Yields (fun f => f.comparisons = t.comparisons) (FromItem.ofSql t)
  | .factor t => factorOfSql_compares t
  | .joined l _ kind r _ c =>
    have hkind : Yields (fun k => (k = .cross) = (kind = .cross)) (JoinKind.ofSql kind) :=
      fun _ hk => joinKind_cross hk
    (tableOfSql_compares l).bind fun _ hl => hkind.bind fun k hk =>
      (conditionOfSql_compares c k).bind fun _ hc => (factorOfSql_compares r).bind fun _ hr => .pure (by
        simp only [FromItem.comparisons, Sql.Table.comparisons, hl, hr, hc, hk])

/-- The condition of a cross join goes away. -/
theorem conditionOfSql_compares : (c : Sql.Constraint) → (kind : JoinKind) →
    Yields (fun x => x.2.comparisons = if kind = .cross then [] else c.comparisons)
      (conditionOfSql kind c)
  | .on e, kind =>
    .ite (fun hk => .pure (by rw [if_pos hk]; rfl)) fun hk =>
      (readingOf_compares e).bare.bind fun _ ha => .pure (by rw [if_neg hk]; exact ha.1)
  | .byColumns cs, kind => .pure (by
      by_cases hk : kind = .cross <;> simp [hk, Sql.Constraint.comparisons, JoinCondition.comparisons])
  | .natural, kind => .pure (by simp [Sql.Constraint.comparisons, JoinCondition.comparisons])
  | .none, kind => .pure (by simp [Sql.Constraint.comparisons, JoinCondition.comparisons])

end

/-! ### Statements -/

theorem assignmentsOfSql_compares (as : List Sql.Assignment) :
    Yields (fun xs => exprComparisons (xs.map Assignment.value) =
      Sql.exprComparisons (as.map Sql.Assignment.value)) (assignmentsOfSql as) := by
  induction as with
  | nil => exact .pure rfl
  | cons a r ih =>
    have hvalue : Yields (fun x : Assignment => x.value.comparisons = a.value.comparisons)
        (do return ⟨a.target, ← (readingOf a.value).whole⟩) :=
      (readingOf_compares a.value).whole.bind fun _ ha => .pure ha
    rw [assignmentsOfSql, List.mapM_cons]
    exact hvalue.bind fun _ ha => ih.bind fun _ hb => .pure (congrArg₂ (· ++ ·) ha hb)

theorem onConflictOfSql_compares : (c : Sql.OnInsert) →
    Yields (fun x => x.comparisons = c.comparisons) (OnConflict.ofSql c)
  | .duplicateKey _ => .throw
  | .conflict _ .nothing => .pure rfl
  | .conflict _ (.update as condition) =>
    (assignmentsOfSql_compares as).bind fun _ has => (bareOptionOfSql_compares condition).bind fun _ hc =>
      .pure (congrArg₂ (· ++ ·) has hc)

theorem onInsertOfSql_compares (c : Option Sql.OnInsert) :
    Yields (fun x => x.elim [] OnConflict.comparisons = c.elim [] Sql.OnInsert.comparisons)
      (c.mapM OnConflict.ofSql) := by
  cases c with
  | none => exact .pure rfl
  | some c =>
    rw [Option.mapM_some]
    exact (onConflictOfSql_compares c).bind fun _ hc => .pure hc

/-- Plain rows of values have only the comparisons in their rows. -/
theorem insertSourceOfSql_compares (q : Option Sql.Query) :
    Yields (fun x => x.comparisons = q.elim [] Sql.Query.comparisons) (InsertSource.ofSql q) := by
  intro x h
  cases q with
  | none =>
    cases h
    rfl
  | some q =>
    obtain ⟨hplain, rows, hbody, rfl⟩ | ⟨-, p, hp, rfl⟩ := insertSourceOfSql_cases h
    · obtain ⟨hrows, hblank⟩ := bodyOfSql_compares q.body _ hbody
      obtain ⟨isRecursive, ctes, body, orderBy, limit, offset, unit, fetch, locks, forClause⟩ := q
      obtain ⟨-, rfl, rfl, rfl, rfl⟩ := hplain
      have hempty : body.isBlank = false := hblank.symm
      have hquery : Sql.Query.comparisons ⟨isRecursive, [], body, [], none, none, unit, fetch, locks,
          forClause⟩ = body.comparisons := by
        simp [Sql.Query.comparisons, Sql.cteComparisons, Sql.sortComparisons, Sql.optionComparisons,
          hempty]
      exact hrows.trans hquery.symm
    · exact queryOfSql_compares q p hp

theorem insertOfSql_compares (i : Sql.Insert) :
    Yields (fun x => (Statement.insert x).comparisons = (Sql.Statement.insert i).comparisons)
      (Insert.ofSql i) :=
  .refusal <| (insertSourceOfSql_compares i.source).bind fun _ hsource =>
    (onInsertOfSql_compares i.on).bind fun _ hon => (targetsOfSql_compares _).bind fun _ hts =>
    .pure (congrArg₂ (· ++ ·) (congrArg₂ (· ++ ·) hsource hon) hts.1)

theorem updateOfSql_compares (u : Sql.Update) :
    Yields (fun x => (Statement.update x).comparisons = (Sql.Statement.update u).comparisons)
      (Update.ofSql u) :=
  .refusal <| .refusal <| .refusal <| .bind' fun _ => (assignmentsOfSql_compares u.assignments).bind
    fun _ has => (bareOptionOfSql_compares u.condition).bind fun _ hc =>
    (targetsOfSql_compares _).bind fun _ hts =>
    .pure (congrArg₂ (· ++ ·) (congrArg₂ (· ++ ·) has hc) hts.1)

theorem deleteOfSql_compares (d : Sql.Delete) :
    Yields (fun x => (Statement.delete x).comparisons = (Sql.Statement.delete d).comparisons)
      (Delete.ofSql d) := by
  refine .refusal <| .refusal <| .refusal <| .refusal ?_
  split
  · exact .bind' fun _ => (bareOptionOfSql_compares d.condition).bind fun _ hc =>
      (targetsOfSql_compares _).bind fun _ hts => .pure (congrArg₂ (· ++ ·) hc hts.1)
  · exact .throw

/-- The layout of a statement has its comparisons, in their order. -/
theorem statementOfSql_compares (x : Sql.Statement) :
    Yields (fun t => t.comparisons = x.comparisons) (Statement.ofSql x) := by
  cases x with
  | query q => exact (queryOfSql_compares q).bind fun _ hq => .pure hq
  | insert i => exact (insertOfSql_compares i).bind fun _ hi => .pure hi
  | update u => exact (updateOfSql_compares u).bind fun _ hu => .pure hu
  | delete d => exact (deleteOfSql_compares d).bind fun _ hd => .pure hd
  | command label => exact .throw

/-- The comparisons of a statement are written in their order, and no other operators stand between two
operands. "Not equal" has one spelling if no comparison with it has a query on its right side, and
else it has not. -/
theorem comparisons_canonical_iff {x : Sql.Statement} {t : Statement} (h : Statement.ofSql x = .ok t)
    (s : Style) :
    (x.comparisons.map (Comparison.written s)).Sublist (leafTexts (t.pieces s)) ∧
      t.emitted.filter Leaf.isOperator = (x.comparisons.map Comparison.leaf).filter Leaf.isOperator ∧
      ((∀ c ∈ x.comparisons, c.IsCanonical s) ↔ ∀ c ∈ x.comparisons, c.withRows → c.op ≠ "<>") := by
  have hcompares := statement_compares t
  rw [statementOfSql_compares x t h] at hcompares
  refine ⟨?_, hcompares.operators, forall₂_congr fun c _ => c.isCanonical_iff s⟩
  have hwritten := hcompares.sublist.map (Leaf.written s)
  rwa [List.map_map, ← leafTexts_emitted] at hwritten

/-- An array on the right side, in parentheses, and a plain comparison. -/
theorem comparisons_canonical_array : ∃ x t,
    Sql.parse "select 1 where a <> any((b)) and c != d" = .ok [x] ∧ Statement.ofSql x = .ok t ∧
    x.comparisons = [⟨"<>", false⟩, ⟨"<>", false⟩] ∧ ∀ c ∈ x.comparisons, c.IsCanonical {} := by
  obtain ⟨x, t, hx, ht, hcheck⟩ := exists_of_readOne? "select 1 where a <> any((b)) and c != d"
    (fun x _ => x.comparisons == [⟨"<>", false⟩, ⟨"<>", false⟩]) (by decide +kernel)
  have hcomparisons := beq_iff_eq.1 hcheck
  refine ⟨x, t, hx, ht, hcomparisons, (comparisons_canonical_iff ht {}).2.2.2 ?_⟩
  rw [hcomparisons]
  decide

/-- A query on the right side keeps the other spelling. -/
theorem query_keeps_spelling : ∃ x t,
    Sql.parse "select a <> any(select 1)" = .ok [x] ∧ Statement.ofSql x = .ok t ∧
    t.render {} = "SELECT\n  a <> ANY(\n    SELECT\n      1\n  )" ∧
    ∃ c ∈ x.comparisons, ∀ s, ¬ c.IsCanonical s := by
  obtain ⟨x, t, hx, ht, hcheck⟩ := exists_of_readOne? "select a <> any(select 1)"
    (fun x t => t.render {} == "SELECT\n  a <> ANY(\n    SELECT\n      1\n  )" &&
      x.comparisons == [⟨"<>", true⟩]) (by decide +kernel)
  rw [Bool.and_eq_true, beq_iff_eq, beq_iff_eq] at hcheck
  refine ⟨x, t, hx, ht, hcheck.1, ⟨"<>", true⟩, ?_, fun s h => h.1 rfl⟩
  rw [hcheck.2]
  exact List.mem_singleton_self _

end SqlLayout.Layout
