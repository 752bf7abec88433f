import SqlLayout.Proofs.Nodes
import SqlLayout.Proofs.QueryClauses

/-!
What holds in every tree that is read from a script. The pieces of a node leave out what a sound tree
does not have: further operands of a negation, arguments beside a star, an operator without a left
side, a condition of a cross join.
-/

namespace SqlLayout

/-- Every result of a computation has the property. -/
def Yields {α : Type} (P : α → Prop) (x : Outcome α) : Prop :=
  ∀ a, x = .ok a → P a

namespace Yields

variable {α β : Type} {P : α → Prop} {Q : β → Prop}

theorem pure {a : α} (h : P a) : Yields P (Pure.pure a) := by
  rintro _ ⟨⟩
  exact h

theorem throw {e : Error} : Yields P (MonadExcept.throw e) := by
  rintro _ ⟨⟩

theorem bind {x : Outcome α} {f : α → Outcome β} (h : Yields P x) (hf : ∀ a, P a → Yields Q (f a)) :
    Yields Q (x >>= f) := by
  intro b hb
  obtain ⟨a, ha, hb⟩ := bind_eq_ok hb
  exact hf a (h a ha) b hb

/-- A first step of which nothing is known. -/
theorem bind' {x : Outcome α} {f : α → Outcome β} (hf : ∀ a, Yields Q (f a)) : Yields Q (x >>= f) :=
  bind (P := fun _ => True) (fun _ _ => trivial) fun a _ => hf a

theorem ite {c : Prop} [Decidable c] {x y : Outcome α} (hx : c → Yields P x) (hy : ¬ c → Yields P y) :
    Yields P (if c then x else y) := by
  split
  · exact hx ‹c›
  · exact hy ‹¬ c›

/-- A refusal has no result. -/
theorem refusal {c : Prop} [Decidable c] {what : String} {x : Outcome α} (h : Yields P x) :
    Yields P (if c then Layout.refuse (α := PUnit) what >>= fun _ => x else x) :=
  .ite (fun _ => .bind' fun _ => h) fun _ => h

theorem mono {P' : α → Prop} {x : Outcome α} (h : Yields P x) (hP : ∀ a, P a → P' a) : Yields P' x :=
  fun a ha => hP a (h a ha)

end Yields

namespace Layout

/-! ### Sound nodes -/

/-- The expression stands in parentheses. -/
def Expr.isNested : Expr → Bool
  | .nested _ => true
  | _ => false

/-- The expression is a node of the connective. -/
def Expr.isLogic (c : Connective) : Expr → Bool
  | .logic c' _ => c' == c
  | _ => false

/-- The expression is a query that stands for its value. -/
def Expr.isScalar : Expr → Bool
  | .link .scalar _ _ _ _ => true
  | _ => false

/-- The ways of a query that compare it with an expression. -/
def LinkKind.hasTest : LinkKind → Bool
  | .all | .any | .membership => true
  | .existence | .array | .scalar => false

/-- The ways of a query that compare by an operator. -/
def LinkKind.hasOperator : LinkKind → Bool
  | .all | .any => true
  | .existence | .array | .scalar | .membership => false

/-- The ways of a query that can be negated. -/
def LinkKind.isNegatable : LinkKind → Bool
  | .existence | .membership => true
  | .all | .any | .array | .scalar => false

/-- The item is a join. -/
def FromItem.isJoin : FromItem → Bool
  | .join _ _ _ _ _ => true
  | _ => false

/-- No parentheses stand around a condition. -/
def IsCondition (x : Option Expr) : Prop :=
  ∀ e ∈ x, e.isNested = false

/-- The operands of a chain of the connective: neither in parentheses nor chains of the same
connective. -/
def AreOperands (c : Connective) (args : List Expr) : Prop :=
  ∀ e ∈ args, e.isNested = false ∧ e.isLogic c = false

/-- What holds of an expression and the expressions right below it. -/
def Expr.IsSound : Expr → Prop
  | .logic .not args => ∃ e, args = [e] ∧ e.isNested = false
  | .logic c args => 2 ≤ args.length ∧ AreOperands c args
  | .link kind test op negated _ =>
    test.isSome = kind.hasTest ∧ op.isSome = kind.hasOperator ∧ (negated → kind.isNegatable)
  | .operation .none _ _ _ _ => True
  | .operation _ _ _ right escape => escape = none ∧ right.isNested = false ∧ right.isScalar = false
  | .unary op _ => op = "+" ∨ op = "-"
  | _ => True

/-- Beside a star stands no argument, and the filter is a condition. -/
def Call.IsSound (c : Call) : Prop :=
  (c.star → c.args = []) ∧ IsCondition c.filter

/-- The condition of a join is one without parentheses, and a natural join or a cross join has none. -/
structure JoinCondition.IsSound (c : JoinCondition) (kind : JoinKind) (natural : Bool) : Prop where
  on : ∀ e, c = .on e → e.isNested = false
  ofNatural : natural → c = .none
  ofCross : kind = .cross → c = .none ∧ natural = false

/-- Joins nest on their left sides only. -/
def FromItem.IsSound : FromItem → Prop
  | .join kind natural left right condition =>
    left.IsSound ∧ right.isJoin = false ∧ condition.IsSound kind natural
  | _ => True

/-- What holds of a select, apart from the expressions and the queries in it. -/
structure Select.IsSound (x : Select) : Prop where
  condition : IsCondition x.condition
  having : IsCondition x.having
  source : ∀ f ∈ x.source, f.IsSound

/-- What holds of a node by itself. -/
def Node.IsSound : Node → Prop
  | .expr e => e.IsSound
  | .call c => c.IsSound
  | .select x => x.IsSound

/-- The condition of an update on a conflict. -/
def OnConflict.condition : OnConflict → Option Expr
  | ⟨_, .update _ condition⟩ => condition
  | ⟨_, .nothing⟩ => none

/-- The condition of a statement that changes rows. -/
def Statement.condition : Statement → Option Expr
  | .select _ => none
  | .insert i => i.onConflict.bind OnConflict.condition
  | .update u => u.condition
  | .delete d => d.condition

/-- Every node of the statement is sound, and so is its own condition. -/
structure Statement.IsSound (t : Statement) : Prop where
  nodes : ∀ n ∈ t.nodes, n.IsSound
  condition : IsCondition t.condition

/-- The nodes are sound. -/
def AllSound (ns : List Node) : Prop :=
  ∀ n ∈ ns, n.IsSound

@[simp]
theorem allSound_nil : AllSound [] := by
  simp [AllSound]

@[simp]
theorem allSound_cons {n : Node} {ns : List Node} : AllSound (n :: ns) ↔ n.IsSound ∧ AllSound ns := by
  simp [AllSound]

@[simp]
theorem allSound_append {ns ms : List Node} : AllSound (ns ++ ms) ↔ AllSound ns ∧ AllSound ms := by
  simp [AllSound, or_imp, forall_and]

theorem allSound_exprNodes {es : List Expr} :
    AllSound (exprNodes es) ↔ ∀ e ∈ es, AllSound e.nodes := by
  induction es with
  | nil => simp [exprNodes]
  | cons e r ih => simp [exprNodes, ih]

/-! ### Sound readings -/

/-- A sound expression that is neither in parentheses nor a chain. -/
structure Expr.IsOperand (e : Expr) : Prop where
  sound : AllSound e.nodes
  nested : e.isNested = false
  logic : ∀ c args, e = .logic c args → c = .not

theorem Expr.IsOperand.of_isLogic {e : Expr} (sound : AllSound e.nodes) (nested : e.isNested = false)
    (hlogic : ∀ c, e.isLogic c = false) : e.IsOperand where
  sound := sound
  nested := nested
  logic c args h := by
    subst h
    simp [Expr.isLogic] at hlogic

theorem Expr.IsOperand.isLogic {e : Expr} (h : e.IsOperand) {c : Connective} (hc : c ≠ .not) :
    e.isLogic c = false := by
  cases e with
  | logic c' args =>
    rw [h.logic c' args rfl]
    simpa [Expr.isLogic] using hc.symm
  | _ => rfl

/-- In every place, what an expression becomes is sound. -/
structure Reading.IsSound (r : Reading) : Prop where
  whole : Yields (fun e => AllSound e.nodes) r.whole
  bare : Yields (fun e => AllSound e.nodes ∧ e.isNested = false) r.bare
  operands : ∀ c, c ≠ .not →
    Yields (fun es => es ≠ [] ∧ AllSound (exprNodes es) ∧ AreOperands c es) (r.operands c)

theorem Reading.IsSound.same {x : Outcome Expr} (h : Yields Expr.IsOperand x) :
    (Reading.same x).IsSound where
  whole := h.mono fun _ he => he.sound
  bare := h.mono fun _ he => ⟨he.sound, he.nested⟩
  operands c hc := h.bind fun e he => .pure
    ⟨List.cons_ne_nil _ _, by simpa [exprNodes] using he.sound, by
      simpa [AreOperands] using ⟨he.nested, he.isLogic hc⟩⟩

theorem Reading.IsSound.nested {r : Reading} (h : r.IsSound) : r.nested.IsSound where
  whole := h.whole.bind fun e he => .pure (by simpa [Expr.nodes, Node.IsSound, Expr.IsSound] using he)
  bare := h.bare
  operands := h.operands

theorem expr_logic_isSound {c : Connective} (hc : c ≠ .not) {args : List Expr} :
    (Expr.logic c args).IsSound ↔ 2 ≤ args.length ∧ AreOperands c args := by
  cases c with
  | not => exact absurd rfl hc
  | _ => rfl

/-- Each side brings at least one operand. -/
theorem Reading.IsSound.chain {c : Connective} {l r : Reading} (hc : c ≠ .not) (hl : l.IsSound)
    (hr : r.IsSound) : (Reading.chain c l r).IsSound := by
  have hargs : Yields (fun es => 2 ≤ es.length ∧ AllSound (exprNodes es) ∧ AreOperands c es)
      (do return (← l.operands c) ++ (← r.operands c)) := by
    refine (hl.operands c hc).bind fun ls hls => (hr.operands c hc).bind fun rs hrs => .pure ?_
    obtain ⟨hlne, hlnodes, hlargs⟩ := hls
    obtain ⟨hrne, hrnodes, hrargs⟩ := hrs
    refine ⟨?_, ?_, ?_⟩
    · have hlpos := List.length_pos_iff.2 hlne
      have hrpos := List.length_pos_iff.2 hrne
      rw [List.length_append]
      omega
    · rw [allSound_exprNodes] at hlnodes hrnodes ⊢
      exact List.forall_mem_append.2 ⟨hlnodes, hrnodes⟩
    · exact List.forall_mem_append.2 ⟨hlargs, hrargs⟩
  have hnode : Yields
      (fun e => AllSound e.nodes ∧ e.isNested = false ∧ ∀ c', c' ≠ c → e.isLogic c' = false)
      (Reading.chain c l r).whole := by
    refine hargs.bind fun es hes => .pure ?_
    obtain ⟨hlength, hnodes, hoperands⟩ := hes
    refine ⟨?_, rfl, fun c' hc' => by simpa [Expr.isLogic] using hc'.symm⟩
    simp only [Expr.nodes, allSound_cons]
    exact ⟨(expr_logic_isSound hc).2 ⟨hlength, hoperands⟩, hnodes⟩
  constructor
  · exact hnode.mono fun _ h => h.1
  · exact hnode.mono fun _ h => ⟨h.1, h.2.1⟩
  · intro c' hc'
    simp only [Reading.chain]
    refine .ite (fun heq => ?_) fun hne => ?_
    · subst heq
      exact hargs.mono fun es h => ⟨by rintro rfl; simp at h, h.2⟩
    · refine hnode.bind fun e he => .pure ⟨List.cons_ne_nil _ _, ?_, ?_⟩
      · simpa [exprNodes] using he.1
      · simpa [AreOperands] using ⟨he.2.1, he.2.2 c' hne⟩

/-! ### What an expression becomes -/

/-- An expression is one of its nodes; of a call only the call is. -/
theorem Expr.isSound_of_nodes {e : Expr} (h : AllSound e.nodes) : e.IsSound := by
  cases e <;> first | trivial | exact h _ List.mem_cons_self

theorem leaf_isOperand {e : Expr} (hnodes : e.nodes = [.expr e]) (hsound : e.IsSound)
    (hnested : e.isNested = false) (hlogic : ∀ c, e.isLogic c = false) : e.IsOperand :=
  .of_isLogic (by simpa [hnodes, Node.IsSound] using hsound) hnested hlogic

theorem ofIdent_isOperand (i : Sql.Ident) : (Expr.ofIdent i).IsOperand := by
  unfold Expr.ofIdent
  split <;> exact leaf_isOperand rfl trivial rfl fun _ => rfl

theorem ofPath_isOperand (names : List Sql.Ident) : (Expr.ofPath names).IsOperand := by
  unfold Expr.ofPath
  split <;> exact leaf_isOperand rfl trivial rfl fun _ => rfl

theorem ofValue_isOperand (v : Sql.Value) : (Expr.ofValue v).IsOperand := by
  cases v with
  | placeholder t =>
    simp only [Expr.ofValue]
    split <;> exact leaf_isOperand rfl trivial rfl fun _ => rfl
  | _ => exact leaf_isOperand rfl trivial rfl fun _ => rfl

theorem ofTest_isOperand {e : Expr} (h : AllSound e.nodes) (negated : Bool) (truth : Sql.Truth) :
    (Expr.ofTest e negated truth).IsOperand := by
  cases truth <;> exact .of_isLogic (allSound_cons.2 ⟨trivial, h⟩) rfl fun _ => rfl

theorem operation_isOperand {l r : Expr} (op : String) {escape : Option Expr} (hl : AllSound l.nodes)
    (hr : AllSound r.nodes) (hescape : AllSound (optionNodes escape)) :
    (Expr.operation .none op l r escape).IsOperand :=
  .of_isLogic (by simp [Expr.nodes, hl, hr, hescape, Node.IsSound, Expr.IsSound]) rfl fun _ => rfl

theorem link_isSound {kind : LinkKind} {test : Option Expr} {op : Option String} {q : Query}
    (htest : test.isSome = kind.hasTest) (hop : op.isSome = kind.hasOperator) :
    (Expr.link kind test op false q).IsSound :=
  ⟨htest, hop, fun h => absurd h Bool.false_ne_true⟩

theorem link_isOperand {kind : LinkKind} {test : Option Expr} {op : Option String} {negated : Bool}
    {q : Query} (h : (Expr.link kind test op negated q).IsSound) (htest : AllSound (optionNodes test))
    (hq : AllSound q.nodes) : (Expr.link kind test op negated q).IsOperand :=
  .of_isLogic (by simp only [Expr.nodes, allSound_cons, allSound_append]; exact ⟨h, htest, hq⟩) rfl
    fun _ => rfl

theorem eq_of_isScalar {e : Expr} (h : e.IsSound) (hscalar : e.isScalar) :
    ∃ q, e = .link .scalar none none false q := by
  cases e with
  | link kind test op negated q =>
    cases kind with
    | scalar =>
      obtain ⟨htest, hop, hnegated⟩ := h
      simp only [LinkKind.hasTest, LinkKind.hasOperator, LinkKind.isNegatable,
        Option.isSome_eq_false_iff, Option.isNone_iff_eq_none] at htest hop hnegated
      subst htest hop
      cases negated with
      | false => exact ⟨q, rfl⟩
      | true => exact absurd (hnegated rfl) (by decide)
    | _ => cases hscalar
  | _ => cases hscalar

/-- A query on the right side becomes the query that is compared with, so no scalar query is left. -/
theorem ofQuantified_isOperand (k : Sql.Quantifier) (op : String) {l r : Expr}
    (hl : AllSound l.nodes) (hr : AllSound r.nodes) (hnested : r.isNested = false) :
    (Expr.ofQuantified k op l r).IsOperand := by
  unfold Expr.ofQuantified
  split
  · rename_i q
    have hq : AllSound q.nodes := by simpa [Expr.nodes, optionNodes] using (allSound_cons.1 hr).2
    by_cases hk : k = .all <;> simp only [hk, if_true, if_false] <;>
      exact link_isOperand (link_isSound rfl rfl) hl hq
  · rename_i hnot
    have hscalar : r.isScalar = false := by
      by_contra h
      obtain ⟨q, hq⟩ := eq_of_isScalar (Expr.isSound_of_nodes hr) (by simpa using h)
      exact hnot q hq
    by_cases hk : k = .all <;> simp only [hk, if_true, if_false] <;>
      exact .of_isLogic
        (by simp [Expr.nodes, optionNodes, hl, hr, hnested, hscalar, Node.IsSound, Expr.IsSound]) rfl
        fun _ => rfl

/-- The values of arguments without names. -/
theorem allSound_values {args : List Arg} (h : AllSound (argNodes args)) :
    AllSound (exprNodes (args.filterMap fun | .positional e => some e | .named _ _ _ => none)) := by
  induction args with
  | nil => simp [exprNodes]
  | cons a r ih =>
    cases a with
    | positional e =>
      simp only [argNodes, allSound_append] at h
      simpa [exprNodes] using ⟨h.1, ih h.2⟩
    | named n s e =>
      simp only [argNodes, allSound_append] at h
      simpa using ih h.2

theorem ofCall_isOperand {c : Call} (h : AllSound c.nodes) : (Expr.ofCall c).IsOperand := by
  have hcall : (Expr.call c).IsOperand := .of_isLogic h rfl fun _ => rfl
  unfold Expr.ofCall
  split
  · dsimp only
    split
    · obtain ⟨name, args, distinct, star, orderBy, withinGroup, filter, window⟩ := c
      simp only [Call.nodes, allSound_cons, allSound_append] at h
      exact .of_isLogic (allSound_cons.2 ⟨trivial, allSound_values h.2.1.1.1.1⟩) rfl fun _ => rfl
    · exact hcall
  · exact hcall

/-- The arguments are sound, and beside a star there are none. -/
def ArgsSound (x : Args) : Prop :=
  ∀ args star, x = some (args, star) → AllSound (argNodes args) ∧ (star → args = [])

theorem argsOf_sound {es : List Sql.Expr} {positional : Outcome (Option (List Arg))}
    (h : Yields (fun x => ∀ args, x = some args → AllSound (argNodes args)) positional) :
    Yields ArgsSound (argsOf es positional) := by
  unfold argsOf
  split
  · refine .pure fun args star heq => ?_
    cases heq
    exact ⟨by simp [argNodes], fun _ => rfl⟩
  · refine h.bind fun x hx => .pure fun args star heq => ?_
    obtain ⟨list, hlist, heq⟩ := Option.map_eq_some_iff.1 heq
    cases heq
    exact ⟨hx _ hlist, fun h => absurd h Bool.false_ne_true⟩

theorem queryCall_sound (name : Sql.ObjectName) {q : Sql.Query}
    (hq : Yields (fun p => AllSound p.nodes) (Query.ofSql q)) :
    (readingOf (.queryCall name q)).IsSound := by
  simp only [readingOf]
  have htext (t : String) : (Reading.same (return .verbatim t)).IsSound :=
    .same (.pure (leaf_isOperand rfl trivial rfl fun _ => rfl))
  generalize name.map Sql.Ident.print = words
  cases words with
  | nil => exact htext _
  | cons word rest =>
    cases rest with
    | nil =>
      by_cases hword : Text.eqIgnoreCase word "array"
      · simp only [hword, if_true]
        exact .same (hq.bind fun p hp => .pure (link_isOperand (link_isSound rfl rfl) allSound_nil hp))
      · simp only [hword]
        exact htext _
    | cons => exact htext _

theorem call_sound {name : Sql.ObjectName} {odbc : Bool} {duplicates : Option String}
    {args : List Sql.Expr} {before : List String} {orderBy : List Sql.SortItem}
    {clauses : List String} {withinGroup : List Sql.SortItem} {filter : Option Sql.Expr}
    {nulls : Option String} {window : Sql.Window}
    (horder : Yields (fun xs => AllSound (sortNodes xs)) (sortOfSql orderBy))
    (hargs : Yields ArgsSound (argsOf args (positionalOfSql args)))
    (hwindow : Yields (fun w => AllSound (windowNodes w)) (windowOfSql window))
    (hgroup : Yields (fun xs => AllSound (sortNodes xs)) (sortOfSql withinGroup))
    (hfilter : Yields (fun x => AllSound (optionNodes x) ∧ IsCondition x) (bareOptionOfSql filter)) :
    (readingOf (.call name odbc duplicates args before orderBy clauses withinGroup filter nulls
      window)).IsSound := by
  simp only [readingOf]
  have htext (t : String) : Yields Expr.IsOperand (return .verbatim t) :=
    .pure (leaf_isOperand rfl trivial rfl fun _ => rfl)
  refine .same (.ite (fun _ => htext _) fun _ => horder.bind fun order ho =>
    .ite (fun _ => htext _) fun _ => hargs.bind fun parts hparts => ?_)
  cases parts with
  | none => exact htext _
  | some part =>
    obtain ⟨list, star⟩ := part
    obtain ⟨hlist, hstar⟩ := hparts list star rfl
    refine hwindow.bind fun w hw => hgroup.bind fun group hg => hfilter.bind fun f hf => .pure ?_
    refine ofCall_isOperand (allSound_cons.2 ⟨⟨hstar, hf.2⟩, ?_⟩)
    simp only [allSound_append]
    exact ⟨⟨⟨⟨hlist, ho⟩, hg⟩, hf.1⟩, hw⟩

theorem target_cons_sound {e : Sql.Expr} {aliasName : Option Sql.Ident} {r : List Sql.Target}
    (he : (readingOf e).IsSound)
    (hr : Yields (fun ts => AllSound (targetNodes ts)) (targetsOfSql r)) :
    Yields (fun ts => AllSound (targetNodes ts)) (targetsOfSql (⟨e, aliasName⟩ :: r)) := by
  by_cases hstar : ∃ names, e = .pathStar names
  · obtain ⟨names, rfl⟩ := hstar
    exact hr.bind fun ts hts => .pure (by
      simpa [targetNodes, Expr.nodes, Node.IsSound, Expr.IsSound] using hts)
  · rw [targetsOfSql_cons aliasName r fun names h => hstar ⟨names, h⟩]
    exact he.whole.bind fun a ha => hr.bind fun ts hts => .pure (allSound_append.2 ⟨ha, hts⟩)

theorem positional_cons_sound {e : Sql.Expr} {r : List Sql.Expr} (he : (readingOf e).IsSound)
    (hr : Yields (fun x => ∀ args, x = some args → AllSound (argNodes args)) (positionalOfSql r)) :
    Yields (fun x => ∀ args, x = some args → AllSound (argNodes args)) (positionalOfSql (e :: r)) := by
  rw [positionalOfSql_cons]
  refine .ite (fun _ => he.whole.bind fun a ha => hr.bind fun x hx => .pure fun args heq => ?_)
    fun _ => .pure nofun
  obtain ⟨rest, hrest, rfl⟩ := Option.map_eq_some_iff.1 heq
  exact allSound_append.2 ⟨ha, hx rest hrest⟩

theorem withNodes_sound {isRecursive : Bool} {ctes : List Sql.Cte} {named : List Cte}
    (h : AllSound (cteNodes named)) :
    AllSound (withNodes (if ctes.isEmpty then none else some ⟨isRecursive, named⟩)) := by
  split
  · exact allSound_nil
  · exact h

mutual

theorem readingOf_sound : (e : Sql.Expr) → (readingOf e).IsSound
  | .ident i => .same (.pure (ofIdent_isOperand i))
  | .path names => .same (.pure (ofPath_isOperand names))
  | .star => .same (.pure (leaf_isOperand rfl trivial rfl fun _ => rfl))
  | .pathStar _ => .same (.pure (leaf_isOperand rfl trivial rfl fun _ => rfl))
  | .value v => .same (.pure (ofValue_isOperand v))
  | .binary l .and r => .chain nofun (readingOf_sound l) (readingOf_sound r)
  | .binary l .or r => .chain nofun (readingOf_sound l) (readingOf_sound r)
  | .binary l (.other op) r =>
    .same <| (readingOf_sound l).whole.bind fun _ ha => (readingOf_sound r).whole.bind fun _ hb =>
      .pure (operation_isOperand op ha hb allSound_nil)
  | .unary .not e =>
    .same <| (readingOf_sound e).bare.bind fun a ha => .pure
      ⟨allSound_cons.2 ⟨⟨a, rfl, ha.2⟩, by simpa [exprNodes] using ha.1⟩, rfl, by rintro _ _ ⟨⟩; rfl⟩
  | .unary .plus e =>
    .same <| (readingOf_sound e).whole.bind fun _ ha => .pure
      (.of_isLogic (allSound_cons.2 ⟨.inl rfl, ha⟩) rfl fun _ => rfl)
  | .unary .minus e =>
    .same <| (readingOf_sound e).whole.bind fun _ ha => .pure
      (.of_isLogic (allSound_cons.2 ⟨.inr rfl, ha⟩) rfl fun _ => rfl)
  | .nested e => .nested (readingOf_sound e)
  | .is e negated truth =>
    .same <| (readingOf_sound e).whole.bind fun _ ha => .pure (ofTest_isOperand ha negated truth)
  | .inList e _ list =>
    .same <| (readingOf_sound e).whole.bind fun _ ha => (exprsOfSql_sound list).bind fun _ hb => .pure
      (.of_isLogic (allSound_cons.2 ⟨trivial, allSound_append.2 ⟨ha, hb⟩⟩) rfl fun _ => rfl)
  | .inQuery e _ q =>
    .same <| (readingOf_sound e).whole.bind fun _ ha => (queryOfSql_sound q).bind fun _ hq => .pure
      (link_isOperand ⟨rfl, rfl, fun _ => rfl⟩ ha hq)
  | .between e _ low high =>
    .same <| (readingOf_sound e).whole.bind fun _ ha => (readingOf_sound low).whole.bind fun _ hb =>
      (readingOf_sound high).whole.bind fun _ hc => .pure
        (.of_isLogic (allSound_cons.2 ⟨trivial, allSound_append.2 ⟨allSound_append.2 ⟨ha, hb⟩, hc⟩⟩) rfl
          fun _ => rfl)
  | .quantified l op k r =>
    .same <| (readingOf_sound l).whole.bind fun _ ha => (readingOf_sound r).bare.bind fun _ hb =>
      .pure (ofQuantified_isOperand k op ha hb.1 hb.2)
  | .cast _ e _ =>
    .same <| (readingOf_sound e).whole.bind fun _ ha => .pure
      (.of_isLogic (allSound_cons.2 ⟨trivial, ha⟩) rfl fun _ => rfl)
  | .caseOf operand whens otherwise =>
    .same <| (optionOfSql_sound operand).bind fun _ ha => (whensOfSql_sound whens).bind fun _ hb =>
      (optionOfSql_sound otherwise).bind fun _ hc => .pure
        (.of_isLogic (allSound_cons.2 ⟨trivial, allSound_append.2 ⟨allSound_append.2 ⟨ha, hb⟩, hc⟩⟩) rfl
          fun _ => rfl)
  | .existsIn _ q =>
    .same <| (queryOfSql_sound q).bind fun _ hq => .pure
      (link_isOperand ⟨rfl, rfl, fun _ => rfl⟩ allSound_nil hq)
  | .subquery q =>
    .same <| (queryOfSql_sound q).bind fun _ hq => .pure
      (link_isOperand (link_isSound rfl rfl) allSound_nil hq)
  | .pattern m e negated form escape =>
    .same <| (readingOf_sound e).whole.bind fun _ ha => (readingOf_sound form).whole.bind fun _ hb =>
      .pure (operation_isOperand _ ha hb (by
        cases escape with
        | none => exact allSound_nil
        | some v => exact (ofValue_isOperand v).sound))
  | .distinctFrom l _ r =>
    .same <| (readingOf_sound l).whole.bind fun _ ha => (readingOf_sound r).whole.bind fun _ hb =>
      .pure (operation_isOperand _ ha hb allSound_nil)
  | .array es =>
    .same <| (exprsOfSql_sound es).bind fun _ hes => .pure
      (.of_isLogic (allSound_cons.2 ⟨trivial, hes⟩) rfl fun _ => rfl)
  | .bareCall name => .same (.pure (by
      split
      · split <;> exact leaf_isOperand rfl trivial rfl fun _ => rfl
      · exact leaf_isOperand rfl trivial rfl fun _ => rfl))
  | .queryCall name q => queryCall_sound name (queryOfSql_sound q)
  | .call _ _ _ args _ orderBy _ withinGroup filter _ window =>
    call_sound (sortOfSql_sound orderBy) (argsOf_sound (positionalOfSql_sound args))
      (windowOfSql_sound window) (sortOfSql_sound withinGroup) (bareOptionOfSql_sound filter)
  | .namedArg _ => .same (.pure (leaf_isOperand rfl trivial rfl fun _ => rfl))
  | .access _ => .same (.pure (leaf_isOperand rfl trivial rfl fun _ => rfl))
  | .phrase _ => .same (.pure (leaf_isOperand rfl trivial rfl fun _ => rfl))

theorem exprsOfSql_sound : (es : List Sql.Expr) →
    Yields (fun xs => AllSound (exprNodes xs)) (exprsOfSql es)
  | [] => .pure allSound_nil
  | e :: r =>
    (readingOf_sound e).whole.bind fun _ ha => (exprsOfSql_sound r).bind fun _ hb =>
      .pure (allSound_append.2 ⟨ha, hb⟩)

theorem optionOfSql_sound : (e : Option Sql.Expr) →
    Yields (fun x => AllSound (optionNodes x)) (optionOfSql e)
  | none => .pure allSound_nil
  | some e => (readingOf_sound e).whole.bind fun _ ha => .pure ha

theorem bareOptionOfSql_sound : (e : Option Sql.Expr) →
    Yields (fun x => AllSound (optionNodes x) ∧ IsCondition x) (bareOptionOfSql e)
  | none => .pure ⟨allSound_nil, nofun⟩
  | some e => (readingOf_sound e).bare.bind fun _ ha => .pure ⟨ha.1, by rintro _ ⟨⟩; exact ha.2⟩

theorem whensOfSql_sound : (ws : List Sql.When) →
    Yields (fun xs => AllSound (whenNodes xs)) (whensOfSql ws)
  | [] => .pure allSound_nil
  | ⟨c, r⟩ :: ws =>
    (readingOf_sound c).whole.bind fun _ ha => (readingOf_sound r).whole.bind fun _ hb =>
      (whensOfSql_sound ws).bind fun _ hrest =>
        .pure (allSound_append.2 ⟨allSound_append.2 ⟨ha, hb⟩, hrest⟩)

theorem sortOfSql_sound : (is : List Sql.SortItem) →
    Yields (fun xs => AllSound (sortNodes xs)) (sortOfSql is)
  | [] => .pure allSound_nil
  | ⟨e, _⟩ :: r =>
    (readingOf_sound e).whole.bind fun _ ha => (sortOfSql_sound r).bind fun _ hb =>
      .pure (allSound_append.2 ⟨ha, hb⟩)

theorem positionalOfSql_sound : (es : List Sql.Expr) →
    Yields (fun x => ∀ args, x = some args → AllSound (argNodes args)) (positionalOfSql es)
  | [] => .pure (by rintro _ ⟨⟩; exact allSound_nil)
  | e :: r => positional_cons_sound (readingOf_sound e) (positionalOfSql_sound r)

theorem windowOfSql_sound : (w : Sql.Window) →
    Yields (fun x => AllSound (windowNodes x)) (windowOfSql w)
  | .none => .pure allSound_nil
  | .named _ => .throw
  | .spec partitionBy orderBy _ =>
    (exprsOfSql_sound partitionBy).bind fun _ ha => (sortOfSql_sound orderBy).bind fun _ hb =>
      .pure (allSound_append.2 ⟨ha, hb⟩)

theorem queryOfSql_sound : (q : Sql.Query) → Yields (fun p => AllSound p.nodes) (Query.ofSql q)
  | ⟨_, ctes, body, orderBy, limit, offset, _, _, _, _⟩ =>
    .refusal <| .refusal <| (ctesOfSql_sound ctes).bind fun _ hctes =>
      (sortOfSql_sound orderBy).bind fun _ horder => (optionOfSql_sound limit).bind fun _ hlimit =>
      (optionOfSql_sound offset).bind fun _ hoffset => (bodyOfSql_sound body).bind fun _ hbody =>
      .pure (allSound_append.2 ⟨allSound_append.2 ⟨allSound_append.2 ⟨allSound_append.2
        ⟨withNodes_sound hctes, hbody⟩, horder⟩, hlimit⟩, hoffset⟩)

theorem ctesOfSql_sound : (cs : List Sql.Cte) →
    Yields (fun xs => AllSound (cteNodes xs)) (ctesOfSql cs)
  | [] => .pure allSound_nil
  | ⟨_, _, q, _⟩ :: r =>
    (queryOfSql_sound q).bind fun _ hq => (ctesOfSql_sound r).bind fun _ hr =>
      .pure (allSound_append.2 ⟨hq, hr⟩)

theorem bodyOfSql_sound : (b : Sql.Body) → Yields (fun x => AllSound x.nodes) (Body.ofSql b)
  | .select x => by
    simp only [Body.ofSql]
    split
    · exact fun _ h => nomatch h
    · exact (selectOfSql_sound x).bind fun _ hx => .pure hx
  | .query q => (queryOfSql_sound q).bind fun _ hq => .pure hq
  | .setOp l _ _ r =>
    .bind' fun _ => .bind' fun _ => (bodyOfSql_sound l).bind fun _ hl =>
      (bodyOfSql_sound r).bind fun _ hr => .pure (allSound_append.2 ⟨hl, hr⟩)
  | .values _ _ rows => (rowsOfSql_sound rows).bind fun _ hrows => .pure hrows
  | .other _ => .throw

theorem rowsOfSql_sound : (rows : List (List Sql.Expr)) →
    Yields (fun xs => AllSound (rowNodes xs)) (rowsOfSql rows)
  | [] => .pure allSound_nil
  | es :: r =>
    (exprsOfSql_sound es).bind fun _ hes => (rowsOfSql_sound r).bind fun _ hr =>
      .pure (allSound_append.2 ⟨hes, hr⟩)

theorem selectOfSql_sound : (x : Sql.Select) → Yields (fun y => AllSound y.nodes) (Select.ofSql x)
  | ⟨distinct, _, targets, _, tables, _, condition, groupBy, _, _, _, _, _, having, _, _, _⟩ =>
    (distinctOfSql_sound distinct).bind fun _ hdistinct => .refusal <| .refusal <|
      (exprsOfSql_sound groupBy).bind fun _ hgroup => (targetsOfSql_sound targets).bind fun _ htargets =>
      (fromOfSql_sound tables).bind fun _ hsource =>
      (bareOptionOfSql_sound condition).bind fun _ hcondition =>
      (bareOptionOfSql_sound having).bind fun _ hhaving => .pure <| allSound_cons.2
        ⟨⟨hcondition.2, hhaving.2, hsource.2⟩, allSound_append.2 ⟨allSound_append.2 ⟨allSound_append.2
          ⟨allSound_append.2 ⟨allSound_append.2 ⟨hdistinct, htargets⟩, hsource.1⟩, hcondition.1⟩,
          hgroup⟩, hhaving.1⟩⟩

theorem distinctOfSql_sound : (d : Sql.Distinct) →
    Yields (fun x => AllSound (distinctNodes x)) (distinctOfSql d)
  | .none => .pure allSound_nil
  | .rows => .pure allSound_nil
  | .on es => (exprsOfSql_sound es).bind fun _ hes => .pure hes

theorem targetsOfSql_sound : (ts : List Sql.Target) →
    Yields (fun xs => AllSound (targetNodes xs)) (targetsOfSql ts)
  | [] => .pure allSound_nil
  | ⟨e, _⟩ :: r => target_cons_sound (readingOf_sound e) (targetsOfSql_sound r)

theorem fromOfSql_sound : (ts : List Sql.Table) →
    Yields (fun xs => AllSound (fromNodes xs) ∧ ∀ f ∈ xs, f.IsSound) (fromOfSql ts)
  | [] => .pure ⟨allSound_nil, nofun⟩
  | t :: r =>
    (tableOfSql_sound t).bind fun _ ht => (fromOfSql_sound r).bind fun _ hr =>
      .pure ⟨allSound_append.2 ⟨ht.1, hr.1⟩, List.forall_mem_cons.2 ⟨ht.2, hr.2⟩⟩

theorem factorOfSql_sound : (t : Sql.Factor) →
    Yields (fun f => AllSound f.nodes ∧ f.IsSound ∧ f.isJoin = false) (FromItem.ofFactor t)
  | .table _ _ => .pure ⟨allSound_nil, trivial, rfl⟩
  | .function _ _ args _ =>
    (argsOf_sound (positionalOfSql_sound args)).bind fun parts hparts => by
      match parts with
      | none => exact .pure ⟨allSound_nil, trivial, rfl⟩
      | some (list, star) =>
        obtain ⟨hlist, hstar⟩ := hparts list star rfl
        refine .pure ⟨allSound_cons.2 ⟨⟨hstar, nofun⟩, ?_⟩, trivial, rfl⟩
        simpa [sortNodes, optionNodes, windowNodes] using hlist
  | .derived _ q _ => (queryOfSql_sound q).bind fun _ hq => .pure ⟨hq, trivial, rfl⟩
  | .phrase _ => .pure ⟨allSound_nil, trivial, rfl⟩

theorem tableOfSql_sound : (t : Sql.Table) →
    Yields (fun f => AllSound f.nodes ∧ f.IsSound) (FromItem.ofSql t)
  | .factor t => (factorOfSql_sound t).mono fun _ h => ⟨h.1, h.2.1⟩
  | .joined l _ _ r _ c =>
    (tableOfSql_sound l).bind fun _ hl => .bind' fun kind => (conditionOfSql_sound c kind).bind
      fun _ hc => (factorOfSql_sound r).bind fun _ hr => .pure
        ⟨allSound_append.2 ⟨allSound_append.2 ⟨hl.1, hr.1⟩, hc.1⟩, hl.2, hr.2.2, hc.2⟩

theorem conditionOfSql_sound : (c : Sql.Constraint) → (kind : JoinKind) →
    Yields (fun x => AllSound x.2.nodes ∧ x.2.IsSound kind x.1) (conditionOfSql kind c)
  | .on e, kind =>
    .ite (fun _ => .pure ⟨allSound_nil, nofun, nofun, fun _ => ⟨rfl, rfl⟩⟩) fun hkind =>
      (readingOf_sound e).bare.bind fun _ ha => .pure
        ⟨ha.1, by rintro _ ⟨⟩; exact ha.2, nofun, fun h => absurd h hkind⟩
  | .byColumns cs, kind => .pure (by
      by_cases hkind : kind = .cross
      · rw [if_pos hkind]
        exact ⟨allSound_nil, nofun, nofun, fun _ => ⟨rfl, rfl⟩⟩
      · rw [if_neg hkind]
        exact ⟨allSound_nil, nofun, nofun, fun h => absurd h hkind⟩)
  | .natural, kind => .pure ⟨allSound_nil, nofun, fun _ => rfl, fun h => ⟨rfl, by simp [h]⟩⟩
  | .none, _ => .pure ⟨allSound_nil, nofun, nofun, fun _ => ⟨rfl, rfl⟩⟩

end

/-! ### Statements -/

theorem assignmentsOfSql_sound (as : List Sql.Assignment) :
    Yields (fun xs => AllSound (assignmentNodes xs)) (assignmentsOfSql as) := by
  induction as with
  | nil => exact .pure allSound_nil
  | cons a r ih =>
    rw [assignmentsOfSql, List.mapM_cons]
    refine ((readingOf_sound a.value).whole.bind (Q := fun x => AllSound x.value.nodes) fun _ ha =>
      .pure ha).bind fun _ ha => ih.bind fun _ hb => .pure (allSound_append.2 ⟨ha, hb⟩)

theorem insertSourceOfSql_sound (q : Option Sql.Query) :
    Yields (fun x => AllSound x.nodes) (InsertSource.ofSql q) := by
  intro x h
  cases q with
  | none =>
    cases h
    exact allSound_nil
  | some q =>
    obtain ⟨-, rows, hbody, rfl⟩ | ⟨-, p, hp, rfl⟩ := insertSourceOfSql_cases h
    · exact bodyOfSql_sound q.body _ hbody
    · exact queryOfSql_sound q p hp

theorem onConflictOfSql_sound : (c : Sql.OnInsert) →
    Yields (fun x => AllSound x.nodes ∧ IsCondition x.condition) (OnConflict.ofSql c)
  | .duplicateKey _ => .throw
  | .conflict _ .nothing => .pure ⟨allSound_nil, nofun⟩
  | .conflict _ (.update as condition) =>
    (assignmentsOfSql_sound as).bind fun _ has => (bareOptionOfSql_sound condition).bind fun _ hc =>
      .pure ⟨allSound_append.2 ⟨has, hc.1⟩, hc.2⟩

theorem onInsertOfSql_sound (c : Option Sql.OnInsert) :
    Yields (fun x => AllSound (x.elim [] OnConflict.nodes) ∧ IsCondition (x.bind OnConflict.condition))
      (c.mapM OnConflict.ofSql) := by
  cases c with
  | none => exact .pure ⟨allSound_nil, nofun⟩
  | some c =>
    rw [Option.mapM_some]
    exact (onConflictOfSql_sound c).bind fun _ hc => .pure hc

theorem returningOfSql_sound (targets : Option (List Sql.Target)) :
    Yields (fun xs => AllSound (targetNodes xs)) (returningOfSql targets) :=
  targetsOfSql_sound _

theorem insertOfSql_sound (i : Sql.Insert) :
    Yields (fun x => (Statement.insert x).IsSound) (Insert.ofSql i) :=
  .refusal <| (insertSourceOfSql_sound i.source).bind fun _ hsource =>
    (onInsertOfSql_sound i.on).bind fun _ hon => (returningOfSql_sound i.returning).bind fun _ hts =>
    .pure ⟨allSound_append.2 ⟨allSound_append.2 ⟨hsource, hon.1⟩, hts⟩, hon.2⟩

theorem updateOfSql_sound (u : Sql.Update) :
    Yields (fun x => (Statement.update x).IsSound) (Update.ofSql u) :=
  .refusal <| .refusal <| .refusal <| .bind' fun _ => (assignmentsOfSql_sound u.assignments).bind
    fun _ has => (bareOptionOfSql_sound u.condition).bind fun _ hc =>
    (returningOfSql_sound u.returning).bind fun _ hts =>
    .pure ⟨allSound_append.2 ⟨allSound_append.2 ⟨has, hc.1⟩, hts⟩, hc.2⟩

theorem deleteOfSql_sound (d : Sql.Delete) :
    Yields (fun x => (Statement.delete x).IsSound) (Delete.ofSql d) := by
  refine .refusal <| .refusal <| .refusal <| .refusal ?_
  split
  · exact .bind' fun _ => (bareOptionOfSql_sound d.condition).bind fun _ hc =>
      (returningOfSql_sound d.returning).bind fun _ hts => .pure ⟨allSound_append.2 ⟨hc.1, hts⟩, hc.2⟩
  · exact .throw

/-- Every tree that comes from a script is sound. -/
theorem statementOfSql_sound {s : Sql.Statement} {t : Statement} (h : Statement.ofSql s = .ok t) :
    t.IsSound := by
  cases s with
  | query q =>
    obtain ⟨p, hp, h⟩ := bind_eq_ok h
    cases h
    exact ⟨queryOfSql_sound q p hp, nofun⟩
  | insert i =>
    obtain ⟨x, hx, h⟩ := bind_eq_ok h
    cases h
    exact insertOfSql_sound i x hx
  | update u =>
    obtain ⟨x, hx, h⟩ := bind_eq_ok h
    cases h
    exact updateOfSql_sound u x hx
  | delete d =>
    obtain ⟨x, hx, h⟩ := bind_eq_ok h
    cases h
    exact deleteOfSql_sound d x hx
  | command label => cases h

/-- The parentheses around the conditions and around the chain in the chain are gone. -/
theorem statementOfSql_sound_select : ∃ s t,
    Sql.parse "select f(*) from t join u on (a and (b and c)) where not (d = any ((select 1)))" = .ok [s] ∧
    Statement.ofSql s = .ok t ∧ t.nodes.length = 11 ∧ t.IsSound := by
  obtain ⟨s, t, hs, ht, hlength⟩ := exists_of_readOne?
    "select f(*) from t join u on (a and (b and c)) where not (d = any ((select 1)))"
    (fun _ t => t.nodes.length == 11) (by decide +kernel)
  exact ⟨s, t, hs, ht, by simpa using hlength, statementOfSql_sound ht⟩

end Layout

end SqlLayout
