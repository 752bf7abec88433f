import SqlLayout.Proofs.Rereading.Queries

/-!
Every readable tree is read back: one case for each kind of phrase, by the phrases in it.
-/

namespace SqlLayout.Layout

variable {s : Style}

/-- A query with fewer levels around it. -/
theorem exists_depth {d n : Nat} (h : n ≤ d) : ∃ k, d = k + n :=
  ⟨d - n, by omega⟩

mutual

theorem expr_rereads : (e : Expr) → (d : Nat) → (isOperand : Bool) → e.isReadable d isOperand = true →
    e.Rereads s d isOperand
  | .column fields star, d, _, h => by
    simp only [Expr.isReadable, Bool.and_eq_true, Bool.not_eq_true'] at h
    obtain ⟨rfl, h⟩ := h
    exact rereads_column h
  | .keyword w, _, _, h => rereads_keyword (List.contains_iff_mem.1 h)
  | .const c, _, _, h => rereads_const h
  | .param n, _, _, h => rereads_param (of_decide_eq_true h)
  | .call c, d, _, h => by
    simp only [Expr.isReadable, Bool.and_eq_true, decide_eq_true_eq] at h
    obtain ⟨d, rfl⟩ := exists_depth h.1
    exact call_rereads c d h.2
  | .operation q op l r escape, d, _, h => by
    simp only [Expr.isReadable, Bool.and_eq_true, decide_eq_true_eq, beq_iff_eq,
      Option.isNone_iff_eq_none, List.contains_iff_mem] at h
    obtain ⟨⟨⟨⟨⟨⟨⟨hd, rfl⟩, rfl⟩, hop⟩, hl⟩, hleft⟩, hr⟩, hright⟩ := h
    obtain ⟨d, rfl⟩ := exists_depth hd
    exact rereads_operation hop (expr_rereads l (d + 1) false hl) hleft (expr_rereads r d false hr)
      hright
  | .logic .not args, d, _, h => by
    simp only [Expr.isReadable, Bool.and_eq_true, decide_eq_true_eq] at h
    obtain ⟨d, rfl⟩ := exists_depth h.1
    exact negation_rereads args d h.2
  | .logic .and args, d, _, h => rereads_logic (by decide) h (chain_rereads .and args)
  | .logic .or args, d, _, h => rereads_logic (by decide) h (chain_rereads .or args)
  | .nullTest e t, d, _, h => by
    simp only [Expr.isReadable, Bool.and_eq_true, decide_eq_true_eq] at h
    exact rereads_nullTest (expr_rereads e d false h.1) h.2
  | .truthTest e t, d, _, h => by
    simp only [Expr.isReadable, Bool.and_eq_true, decide_eq_true_eq] at h
    exact rereads_truthTest (expr_rereads e d false h.1) h.2
  | .cast e typeName bounds, d, _, h => by
    simp only [Expr.isReadable, Bool.and_eq_true, decide_eq_true_eq, beq_iff_eq] at h
    obtain ⟨⟨⟨he, hr⟩, htype⟩, rfl⟩ := h
    exact rereads_cast (expr_rereads e d false he) hr htype
  | .caseOf arg whens default, d, _, h => by
    simp only [Expr.isReadable, Bool.and_eq_true, decide_eq_true_eq, Bool.not_eq_true',
      List.isEmpty_eq_false_iff] at h
    obtain ⟨⟨⟨⟨hd, harg⟩, hne⟩, hwhens⟩, hdefault⟩ := h
    obtain ⟨d, rfl⟩ := exists_depth hd
    exact rereads_caseOf (option_rereads arg d harg) hne (whens_reread whens d hwhens)
      (option_rereads default d hdefault)
  | .coalesce args, d, _, h => by
    simp only [Expr.isReadable, Bool.and_eq_true, decide_eq_true_eq] at h
    obtain ⟨d, rfl⟩ := exists_depth h.1
    exact rereads_coalesce (exprs_reread args d h.2)
  | .link .existence none none _ q, d, _, h => by
    simp only [Expr.isReadable, Bool.and_eq_true, decide_eq_true_eq] at h
    obtain ⟨d, rfl⟩ := exists_depth h.1
    exact rereads_existence (query_rereads q d h.2)
  | .link .scalar none none false q, d, _, h => by
    simp only [Expr.isReadable, Bool.and_eq_true, decide_eq_true_eq] at h
    obtain ⟨⟨hd, hq⟩, hopens⟩ := h
    obtain ⟨d, rfl⟩ := exists_depth hd
    exact rereads_scalar (query_rereads q d hq) hopens
  | .link .membership none none _ q, d, _, h => by simp [Expr.isReadable, testIsReadable] at h
  | .link .membership (some e) none _ q, d, _, h => by
    simp only [Expr.isReadable, testIsReadable, Bool.and_eq_true, decide_eq_true_eq] at h
    obtain ⟨⟨hd, he, hr⟩, hq⟩ := h
    obtain ⟨d, rfl⟩ := exists_depth hd
    exact rereads_membership (expr_rereads e (d + 2) false he) hr (query_rereads q d hq)
  | .inList e list _, d, _, h => by
    simp only [Expr.isReadable, Bool.and_eq_true, decide_eq_true_eq] at h
    obtain ⟨⟨⟨⟨hd, he⟩, hr⟩, hlist⟩, hlead⟩ := h
    obtain ⟨d, rfl⟩ := exists_depth hd
    exact rereads_inList (expr_rereads e (d + 1) false he) hr (exprs_reread list d hlist) hlead
  | .between e low high _, d, _, h => by
    simp only [Expr.isReadable, Bool.and_eq_true, decide_eq_true_eq] at h
    obtain ⟨⟨⟨⟨⟨⟨⟨hd, he⟩, hr⟩, hlow⟩, hlow₁⟩, hlow₂⟩, hhigh⟩, hhigh₁⟩ := h
    obtain ⟨d, rfl⟩ := exists_depth hd
    exact rereads_between (expr_rereads e (d + 1) false he) hr (expr_rereads low d false hlow) hlow₁
      hlow₂ (expr_rereads high d false hhigh) hhigh₁
  | .unary op e, d, _, h => by
    simp only [Expr.isReadable, Bool.and_eq_true, Bool.or_eq_true, decide_eq_true_eq, beq_iff_eq] at h
    obtain ⟨⟨⟨hd, hop⟩, he⟩, hl⟩ := h
    obtain ⟨d, rfl⟩ := exists_depth hd
    exact rereads_unary hop (expr_rereads e d false he) hl
  | .nested e, d, _, h => by
    simp only [Expr.isReadable, Bool.and_eq_true, decide_eq_true_eq] at h
    obtain ⟨d, rfl⟩ := exists_depth h.1
    exact rereads_nested (expr_rereads e d false h.2)

theorem negation_rereads : (args : List Expr) → (d : Nat) → {isOperand : Bool} →
    negationIsReadable d args = true → (Expr.logic .not args).Rereads s (d + 1) isOperand
  | [e], d, _, h => by
    simp only [negationIsReadable, Bool.and_eq_true, decide_eq_true_eq, Bool.not_eq_true',
      bne_iff_ne] at h
    obtain ⟨⟨⟨he, hl⟩, hbare⟩, hlead⟩ := h
    exact rereads_not (expr_rereads e d true he) hl hbare hlead

theorem chain_rereads (c : Connective) : (args : List Expr) → (d : Nat) → chainIsReadable d c args =
    true → (∀ e ∈ args.head?, e.Rereads s d true) ∧ ∀ e ∈ args.tail, e.Rereads s (d - 1) true
  | e :: r, d, h => by
    simp only [chainIsReadable, Bool.and_eq_true] at h
    refine ⟨?_, rest_rereads c r (d - 1) h.2⟩
    rintro _ ⟨⟩
    exact expr_rereads e d true h.1.1.1.2

theorem rest_rereads (c : Connective) : (es : List Expr) → (d : Nat) → restIsReadable d c es = true →
    ∀ e ∈ es, e.Rereads s d true
  | [], _, _ => List.forall_mem_nil _
  | e :: r, d, h => by
    simp only [restIsReadable, Bool.and_eq_true] at h
    exact List.forall_mem_cons.2 ⟨expr_rereads e d true h.1.1.1.1, rest_rereads c r d h.2⟩

theorem exprs_reread : (es : List Expr) → (d : Nat) → exprsAreReadable d es = true → ∀ e ∈ es,
    e.Rereads s d false
  | [], _, _ => List.forall_mem_nil _
  | e :: r, d, h => by
    simp only [exprsAreReadable, Bool.and_eq_true] at h
    exact List.forall_mem_cons.2 ⟨expr_rereads e d false h.1, exprs_reread r d h.2⟩

theorem option_rereads : (o : Option Expr) → (d : Nat) → optionIsReadable d o = true → ∀ e ∈ o,
    e.Rereads s d false
  | none, _, _ => fun _ he => by cases he
  | some e, d, h => by
    rintro _ ⟨⟩
    exact expr_rereads e d false h

theorem condition_rereads : (o : Option Expr) → (d : Nat) → conditionIsReadable d o = true →
    (∀ e ∈ o, e.Rereads s d false) ∧ ∀ e ∈ o, e.isNested = false
  | none, _, _ => ⟨fun _ he => (by cases he), fun _ he => by cases he⟩
  | some e, d, h => by
    simp only [conditionIsReadable, Bool.and_eq_true, Bool.not_eq_true'] at h
    constructor
    · rintro _ ⟨⟩
      exact expr_rereads e d false h.1
    · rintro _ ⟨⟩
      exact h.2

theorem whens_reread : (ws : List When) → (d : Nat) → whensAreReadable d ws = true →
    ∀ w ∈ ws, w.condition.Rereads s d false ∧ w.result.Rereads s d false
  | [], _, _ => List.forall_mem_nil _
  | ⟨c, r⟩ :: ws, d, h => by
    simp only [whensAreReadable, Bool.and_eq_true] at h
    exact List.forall_mem_cons.2
      ⟨⟨expr_rereads c d false h.1.1, expr_rereads r d false h.1.2⟩, whens_reread ws d h.2⟩

theorem call_rereads : (c : Call) → (d : Nat) → {isOperand : Bool} → c.isReadable d = true →
    (Expr.call c).Rereads s (d + 1) isOperand
  | ⟨[w], args, distinct, star, orderBy, withinGroup, filter, window⟩, d, _, h => by
    simp only [Call.isReadable, Bool.and_eq_true] at h
    obtain ⟨⟨⟨⟨⟨⟨hw, hshape⟩, hargs⟩, horder⟩, hgroup⟩, hfilter⟩, hwindow⟩ := h
    obtain ⟨hfilter, hbare⟩ := condition_rereads filter d hfilter
    refine rereads_call hw ?_ (args_reread args d hargs) (sort_rereads orderBy d horder)
      (sort_rereads withinGroup d hgroup) hfilter hbare (window_rereads window d hwindow)
    cases star with
    | true => simpa using hshape
    | false => simpa using hshape

theorem args_reread : (as : List Arg) → (d : Nat) → argsAreReadable d as = true →
    ∀ a ∈ as, ∃ e, a = .positional e ∧ e.Rereads s d false
  | [], _, _ => List.forall_mem_nil _
  | .positional e :: r, d, h => by
    simp only [argsAreReadable, Bool.and_eq_true] at h
    exact List.forall_mem_cons.2 ⟨⟨e, rfl, expr_rereads e d false h.1⟩, args_reread r d h.2⟩

theorem window_rereads : (w : Option Window) → (d : Nat) → windowIsReadable d w = true →
    ∀ v ∈ w, v.frame = none ∧ (∀ e ∈ v.partitionBy, e.Rereads s d false) ∧ ∀ i ∈ v.orderBy,
      i.expr.Rereads s d false
  | none, _, _ => fun _ hv => by cases hv
  | some ⟨partitionBy, orderBy, frame⟩, d, h => by
    simp only [windowIsReadable, Bool.and_eq_true, Option.isNone_iff_eq_none] at h
    rintro _ ⟨⟩
    exact ⟨h.2, exprs_reread partitionBy d h.1.1, sort_rereads orderBy d h.1.2⟩

theorem sort_rereads : (items : List SortItem) → (d : Nat) → sortIsReadable d items = true →
    ∀ i ∈ items, i.expr.Rereads s d false
  | [], _, _ => List.forall_mem_nil _
  | ⟨e, _, _⟩ :: r, d, h => by
    simp only [sortIsReadable, Bool.and_eq_true] at h
    exact List.forall_mem_cons.2 ⟨expr_rereads e d false h.1, sort_rereads r d h.2⟩

theorem query_rereads : (q : Query) → (d : Nat) → q.isReadable d = true → q.Rereads s d
  | ⟨withClause, body, orderBy, limit, offset, locking⟩, d, h => by
    simp only [Query.isReadable, Bool.and_eq_true, List.all_eq_true] at h
    obtain ⟨⟨⟨⟨⟨⟨hwith, hbody⟩, horder⟩, hlimit⟩, hoffset⟩, hlocking⟩, hlock⟩ := h
    refine rereads_query hwith (with_rereads withClause d hwith) (body_rereads body d hbody)
      (sort_rereads orderBy d horder)
      (option_rereads limit d hlimit) (option_rereads offset d hoffset) hlocking ?_
    simpa [or_assoc] using hlock

theorem with_rereads : (w : Option With) → (d : Nat) → withIsReadable d w = true →
    ∀ v ∈ w, ∀ c ∈ v.ctes, c.query.Rereads s (d - 1)
  | none, _, _ => fun _ hv => by cases hv
  | some ⟨_, ctes⟩, d, h => by
    simp only [withIsReadable, Bool.and_eq_true] at h
    rintro _ ⟨⟩
    exact ctes_reread ctes d h.2

theorem ctes_reread : (ctes : List Cte) → (d : Nat) → ctesAreReadable d ctes = true →
    ∀ c ∈ ctes, c.query.Rereads s (d - 1)
  | [], _, _ => List.forall_mem_nil _
  | ⟨_, _, q⟩ :: r, d, h => by
    simp only [ctesAreReadable, Bool.and_eq_true] at h
    exact List.forall_mem_cons.2 ⟨query_rereads q (d - 1) h.1.2, ctes_reread r d h.2⟩

theorem body_rereads : (b : Body) → (d : Nat) → b.isReadable d = true → b.Rereads s d
  | .select x, d, h => rereads_selectBody (select_rereads x d h)
  | .setOp .intersect _ l r, d, h => by
    simp only [Body.isReadable, Bool.and_eq_true, decide_eq_true_eq] at h
    exact rereads_setOp (body_rereads l d h.1.1.1) (body_rereads r d h.1.1.2) h.1.2 h.2
  | .setOp .union _ l r, d, h => by
    simp only [Body.isReadable, Bool.and_eq_true, decide_eq_true_eq] at h
    exact rereads_setOp (body_rereads l d h.1.1) (body_rereads r d h.1.2) (Nat.zero_le _) h.2
  | .setOp .except _ l r, d, h => by
    simp only [Body.isReadable, Bool.and_eq_true, decide_eq_true_eq] at h
    exact rereads_setOp (body_rereads l d h.1.1) (body_rereads r d h.1.2) (Nat.zero_le _) h.2
  | .values rows, d, h => by
    simp only [Body.isReadable, Bool.and_eq_true, Bool.not_eq_true', List.isEmpty_eq_false_iff] at h
    obtain ⟨hne, hrows⟩ := rows_reread rows d h.2
    exact rereads_values h.1 hne hrows
  | .query q, d, h => by
    simp only [Body.isReadable, Bool.and_eq_true, decide_eq_true_eq] at h
    obtain ⟨d, rfl⟩ := exists_depth h.1
    exact rereads_queryBody (query_rereads q d h.2)

theorem rows_reread : (rows : List (List Expr)) → (d : Nat) → rowsAreReadable d rows = true →
    (∀ es ∈ rows, es ≠ []) ∧ ∀ es ∈ rows, ∀ e ∈ es, e.Rereads s d false
  | [], _, _ => ⟨List.forall_mem_nil _, List.forall_mem_nil _⟩
  | es :: r, d, h => by
    simp only [rowsAreReadable, Bool.and_eq_true, Bool.not_eq_true', List.isEmpty_eq_false_iff] at h
    obtain ⟨hne, hrows⟩ := rows_reread r d h.2
    exact ⟨List.forall_mem_cons.2 ⟨h.1.1, hne⟩, List.forall_mem_cons.2 ⟨exprs_reread es d h.1.2, hrows⟩⟩

theorem select_rereads : (x : Select) → (d : Nat) → x.isReadable d = true → x.Rereads s d
  | ⟨distinct, targets, source, condition, groupBy, having⟩, d, h => by
    simp only [Select.isReadable, Bool.and_eq_true, Bool.not_eq_true', List.isEmpty_eq_false_iff] at h
    obtain ⟨⟨⟨⟨⟨⟨hdistinct, hne⟩, htargets⟩, hsource⟩, hcondition⟩, hgroups⟩, hhaving⟩ := h
    obtain ⟨hcondition, hbare⟩ := condition_rereads condition d hcondition
    obtain ⟨hhaving, hbare'⟩ := condition_rereads having d hhaving
    exact rereads_select hdistinct (distinct_rereads distinct d hdistinct) hne
      (targets_reread targets d htargets)
      (from_rereads source d hsource) hcondition hbare hgroups (groups_reread groupBy d hgroups)
        hhaving hbare'

theorem distinct_rereads : (x : Option Distinct) → (d : Nat) → distinctIsReadable d x = true →
    ∀ es, x = some (.on es) → ∀ e ∈ es, e.Rereads s d false
  | some (.on es), d, h => by
    simp only [distinctIsReadable, Bool.and_eq_true] at h
    rintro _ ⟨⟩
    exact exprs_reread es d h.2
  | none, _, _ => fun _ heq => by cases heq
  | some .rows, _, _ => fun _ heq => by cases heq

theorem targets_reread : (targets : List Target) → (d : Nat) → targetsAreReadable d targets = true →
    ∀ t ∈ targets, t.Rereads s d
  | [], _, _ => List.forall_mem_nil _
  | ⟨e, name⟩ :: r, d, h => by
    simp only [targetsAreReadable, Bool.and_eq_true] at h
    exact List.forall_mem_cons.2 ⟨rereads_target h.1 (expr_rereads e d false), targets_reread r d h.2⟩

theorem groups_reread : (es : List Expr) → (d : Nat) → groupsAreReadable d es = true → ∀ e ∈ es,
    e.Rereads s d false
  | [], _, _ => List.forall_mem_nil _
  | e :: r, d, h => by
    simp only [groupsAreReadable, Bool.and_eq_true] at h
    exact List.forall_mem_cons.2 ⟨expr_rereads e d false h.1.1, groups_reread r d h.2⟩

theorem from_rereads : (fs : List FromItem) → (d : Nat) → fromIsReadable d fs = true → ∀ f ∈ fs,
    f.Rereads s d
  | [], _, _ => List.forall_mem_nil _
  | f :: r, d, h => by
    simp only [fromIsReadable, Bool.and_eq_true] at h
    exact List.forall_mem_cons.2 ⟨item_rereads f d h.1, from_rereads r d h.2⟩

theorem alone_rereads : (f : FromItem) → (d : Nat) → f.isReadable d = true → f.isJoin = false →
    f.RereadsAlone s d
  | .table t, _, h, _ => alone_table h
  | .subquery _ q name, d, h, _ => by
    simp only [FromItem.isReadable, Bool.and_eq_true, decide_eq_true_eq] at h
    obtain ⟨⟨hd, hq⟩, hname⟩ := h
    obtain ⟨d, rfl⟩ := exists_depth hd
    exact alone_subquery (query_rereads q d hq) hname

theorem item_rereads : (f : FromItem) → (d : Nat) → f.isReadable d = true → f.Rereads s d
  | .table t, _, h => (alone_table h).joined
  | .subquery _ q name, d, h => by
    simp only [FromItem.isReadable, Bool.and_eq_true, decide_eq_true_eq] at h
    obtain ⟨⟨hd, hq⟩, hname⟩ := h
    obtain ⟨d, rfl⟩ := exists_depth hd
    exact (alone_subquery (query_rereads q d hq) hname).joined
  | .join kind natural l r condition, d, h => by
    simp only [FromItem.isReadable, Bool.and_eq_true, Bool.not_eq_true'] at h
    obtain ⟨⟨⟨hl, hr⟩, hjoin⟩, hcondition⟩ := h
    by_cases hkind : kind = .cross
    · subst hkind
      rw [if_pos rfl, Bool.and_eq_true, Bool.not_eq_true'] at hcondition
      obtain ⟨rfl, hcondition⟩ := hcondition
      cases condition with
      | none => exact rereads_crossJoin (item_rereads l d hl) (alone_rereads r d hr hjoin)
      | _ => simp [JoinCondition.isReadable] at hcondition
    · rw [if_neg hkind] at hcondition
      exact rereads_join hkind (item_rereads l d hl) (alone_rereads r d hr hjoin) hcondition
        (joinCondition_rereads condition d natural hcondition)

theorem joinCondition_rereads : (c : JoinCondition) → (d : Nat) → (natural : Bool) →
    c.isReadable d natural = true → ∀ e, c = .on e → e.Rereads s d false
  | .on e, d, natural, h => by
    simp only [JoinCondition.isReadable, Bool.and_eq_true] at h
    rintro _ ⟨⟩
    exact expr_rereads e d false h.1.2
  | .byColumns _, _, _, _ => fun _ heq => by cases heq
  | .none, _, _, _ => fun _ heq => by cases heq

end

end SqlLayout.Layout
