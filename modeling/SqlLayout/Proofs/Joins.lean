import SqlLayout.Layout.Render
import SqlLayout.Proofs.ParserResults
import SqlLayout.Proofs.QueryClauses
import SqlLayout.Sql.Parser.Table

/-!
Chains of joins. A table phrase with joins is a tree whose outermost join is the last one; its layout is
the first table and then each join, in the order in which they are written.
-/

/-! ### Joins as they are read -/

namespace SqlLayout.Sql

/-- A join after a table phrase. -/
structure Join where
  kind : JoinKind
  right : Factor
  constraint : Constraint

/-- The condition of a join. A cross join takes none. -/
def Join.condition (j : Join) : Constraint :=
  if j.kind = .cross then .none else j.constraint

/-- The table phrase before the joins. -/
def Table.relation : Table → Factor
  | .factor t => t
  | .joined l _ _ _ _ _ => l.relation

/-- The joins after a table phrase, in the order in which they are written. -/
def Table.joins : Table → List Join
  | .factor _ => []
  | .joined l _ kind r _ c => l.joins ++ [⟨kind, r, c⟩]

/-- No cross join of a table phrase has a condition. -/
def Table.IsPlain (t : Table) : Prop :=
  ∀ j ∈ t.joins, j.kind = .cross → j.constraint = .none

theorem Table.IsPlain.condition_eq {t : Table} (h : t.IsPlain) {j : Join} (hj : j ∈ t.joins) :
    j.condition = j.constraint := by
  unfold Join.condition
  split
  · rename_i hcross
    exact (h j hj hcross).symm
  · rfl

theorem Table.IsPlain.joined {t : Table} (h : t.IsPlain) {kind : JoinKind} {c : Constraint}
    (hc : kind = .cross → c = .none) (isGlobal : Bool) (r : Factor) (matching : Option String) :
    (Table.joined t isGlobal kind r matching c).IsPlain := by
  rw [IsPlain, joins, List.forall_mem_append]
  refine ⟨h, ?_⟩
  simpa using hc

namespace Parser

open Table (IsPlain)

theorem sidedJoin_gives (isLeft : Bool) : Gives (· ≠ .cross) (sidedJoin isLeft) := by
  refine (Gives.any (oneOf? ["OUTER", "SEMI", "ANTI", "JOIN"])).bind fun keyword _ => ?_
  have hjoin {kind : JoinKind} (h : kind ≠ .cross) :
      Gives (· ≠ .cross) (word "JOIN" >>= fun _ => Pure.pure kind) :=
    (Gives.any (word "JOIN")).bind fun _ _ => .pure h
  split
  · exact hjoin (by cases isLeft <;> decide)
  · exact hjoin (by cases isLeft <;> decide)
  · exact hjoin (by cases isLeft <;> decide)
  · exact .pure (by cases isLeft <;> decide)
  · exact .fail _

theorem joinKind?_gives (natural : Bool) : Gives (· ≠ some .cross) (joinKind? natural) := by
  refine (Gives.any peek).bind fun t _ => ?_
  have hafter {α : Type} (p : Parser α) {kind : JoinKind} (h : some kind ≠ some .cross) :
      Gives (· ≠ some .cross) (p >>= fun _ => Pure.pure (some kind)) :=
    (Gives.any p).bind fun _ _ => .pure h
  have hsided (isLeft : Bool) : Gives (· ≠ some .cross)
      (next >>= fun _ => sidedJoin isLeft >>= fun kind => Pure.pure (some kind)) :=
    (Gives.any next).bind fun _ _ => (sidedJoin_gives isLeft).bind fun kind h =>
      .pure fun heq => h (Option.some.inj heq)
  split
  · exact hafter next (by decide)
  · exact hafter _ (by decide)
  · exact hsided true
  · exact hsided false
  · exact hafter _ (by decide)
  · exact hafter _ (by decide)
  · exact (Gives.any next).bind fun _ _ => (Gives.any (word? "OUTER")).bind fun _ _ =>
      hafter _ (by decide)
  · exact (Gives.any peek).bind fun _ _ => .fail _
  · exact hafter next (by decide)
  · split
    · exact (Gives.any peek).bind fun _ _ => .fail _
    · exact .pure (by decide)

theorem join?_gives (g : Grammar) (factor : Parser Factor) {left : Table} (h : IsPlain left) :
    Gives (fun x => ∀ t ∈ x, IsPlain t) (join? g factor left) := by
  have hnone : ∀ t ∈ (none : Option Table), IsPlain t := fun _ ht => nomatch ht
  have hsome {t : Table} (ht : IsPlain t) : ∀ t' ∈ some t, IsPlain t' := by
    rintro _ ⟨⟩
    exact ht
  refine (Gives.any (word? "GLOBAL")).bind fun isGlobal _ => ?_
  refine (Gives.any (word? "CROSS")).bind fun isCross _ => ?_
  cases isCross with
  | true =>
    have hcross (kind : JoinKind) : Gives (fun x => ∀ t ∈ x, IsPlain t)
        (factor >>= fun r => Pure.pure (some (.joined left isGlobal kind r none .none))) :=
      (Gives.any factor).bind fun r _ => .pure (hsome (h.joined (fun _ => rfl) isGlobal r none))
    refine (Gives.any (oneOf? ["JOIN", "APPLY"])).bind fun keyword _ => ?_
    split <;> exact (Gives.any _).bind fun kind _ => hcross kind
  | false =>
  refine (Gives.any (word? "OUTER")).bind fun isOuter _ => ?_
  cases isOuter with
  | true =>
    refine (Gives.any (word "APPLY")).bind fun _ _ => (Gives.any factor).bind fun r _ => .pure (hsome ?_)
    exact h.joined (fun _ => rfl) isGlobal r none
  | false =>
  refine (Gives.any (word? "ASOF")).bind fun isAsOf _ => ?_
  cases isAsOf with
  | true =>
    refine (Gives.any (word "JOIN")).bind fun _ _ => (Gives.any factor).bind fun r _ => ?_
    refine (Gives.any (word "MATCH_CONDITION")).bind fun _ _ => ?_
    refine (Gives.any (parens g.anyExpr)).bind fun condition _ => ?_
    refine (Gives.any (joinConstraint g false)).bind fun c _ => .pure (hsome ?_)
    have hasOf : JoinKind.asOf = .cross → c = .none := nofun
    exact h.joined hasOf isGlobal r (some condition.print)
  | false =>
  refine (Gives.any (word? "NATURAL")).bind fun natural _ => ?_
  refine (joinKind?_gives natural).bind fun kind hkind => ?_
  cases kind with
  | none => exact .pure hnone
  | some kind =>
    refine (Gives.any factor).bind fun r _ => ?_
    refine (Gives.any (joinConstraint g natural)).bind fun c _ => .pure (hsome ?_)
    exact h.joined (fun hcross => absurd (congrArg some hcross) hkind) isGlobal r none

theorem joins_gives (g : Grammar) (factor : Parser Factor) (start : Factor) :
    Gives (fun x => IsPlain x.1) (joins g factor start) := by
  have hstart : IsPlain (.factor start) := fun _ hj => nomatch hj
  refine .repeatFrom (I := fun x => IsPlain x.1) hstart fun (t, any) ht => ?_
  refine (join?_gives g factor ht).bind fun x hx => ?_
  cases x with
  | none => exact .pure ht
  | some t => exact .pure (hx t rfl)

/-- No cross join that is read has a condition. -/
theorem tableWithJoins_gives (g : Grammar) : Gives IsPlain (tableWithJoins g) :=
  (Gives.any (table g)).bind fun first _ => (joins_gives g (table g) first).bind fun _ ht => .pure ht

end Parser

end SqlLayout.Sql

/-! ### Layouts of joins -/

namespace SqlLayout.Layout

/-- A join after a table, ready to be laid out. -/
structure Joined where
  kind : JoinKind
  natural : Bool
  right : FromItem
  condition : JoinCondition

namespace Joined

/-- The table with the join after it. -/
def after (f : FromItem) (p : Joined) : FromItem :=
  .join p.kind p.natural f p.right p.condition

/-- A join on a line of its own, at the given depth. -/
def text (s : Style) (d : Nat) (p : Joined) : String :=
  s.newline d ++ (if p.natural then "NATURAL " else "") ++ p.kind.text ++ " " ++
    Piece.textOf s (p.right.pieces s d) ++
    match p.condition with
    | .byColumns cs => " USING(" ++ Text.commas cs ++ ")"
    | .on e =>
      if s.onOwnLine then s.newline (d + 1) ++ "ON " ++ Piece.textOf s (e.pieces s (d + 1) false)
      else " ON " ++ Piece.textOf s (e.pieces s d false)
    | .none => ""

/-- What becomes of the condition of a join. -/
def Keeps (p : Joined) : Sql.Constraint → Prop
  | .on e => p.natural = false ∧ ∃ x, (readingOf e).bare = .ok x ∧ p.condition = .on x
  | .byColumns cs => p.natural = false ∧ p.condition = .byColumns (cs.map Sql.ObjectName.print)
  | .natural => p.natural = true ∧ p.condition = .none
  | .none => p.natural = false ∧ p.condition = .none

/-- What becomes of a join that has been read. -/
structure Mirrors (j : Sql.Join) (p : Joined) : Prop where
  kind : JoinKind.ofSql j.kind = .ok p.kind
  keyword : p.kind.text = j.kind.print
  right : FromItem.ofFactor j.right = .ok p.right
  condition : p.Keeps j.condition

end Joined

/-- The depth of the joins after a table. -/
def joinDepth (s : Style) (d : Nat) : Nat :=
  if s.joinIndented then d + 1 else d

theorem textOf_after (s : Style) (d : Nat) (f : FromItem) (p : Joined) :
    Piece.textOf s ((p.after f).pieces s d) =
      Piece.textOf s (f.pieces s d) ++ p.text s (joinDepth s d) := by
  obtain ⟨kind, natural, right, condition⟩ := p
  simp only [Joined.after, FromItem.pieces, ← joinDepth.eq_def]
  generalize joinDepth s d = depth
  have hnatural : Piece.textOf s (if natural then [.mark "NATURAL "] else []) =
      if natural then "NATURAL " else "" := by
    split <;> simp [Piece.text]
  have hcondition : Piece.textOf s (condition.pieces s depth) =
      match condition with
      | .byColumns cs => " USING(" ++ Text.commas cs ++ ")"
      | .on e =>
        if s.onOwnLine then
          s.newline (depth + 1) ++ "ON " ++ Piece.textOf s (e.pieces s (depth + 1) false)
        else " ON " ++ Piece.textOf s (e.pieces s depth false)
      | .none => "" := by
    cases condition with
    | on e =>
      simp only [JoinCondition.pieces]
      split <;> simp [Piece.textOf_newline, Piece.text, String.append_assoc]
    | byColumns cs =>
      simp [JoinCondition.pieces, Piece.textOf_leaves, Piece.text, String.append_assoc]
    | none => rfl
  simp only [Piece.textOf_append, Piece.textOf_newline, hnatural, hcondition, Joined.text]
  simp [Piece.text, String.append_assoc]

/-- Joins are laid out one after the other. -/
theorem textOf_foldl_after (s : Style) (d : Nat) (ps : List Joined) : ∀ f : FromItem,
    Piece.textOf s ((ps.foldl Joined.after f).pieces s d) =
      Piece.textOf s (f.pieces s d) ++ String.join (ps.map (Joined.text s (joinDepth s d))) := by
  induction ps with
  | nil => intro f; simp
  | cons p r ih =>
    intro f
    rw [List.foldl_cons, ih, textOf_after, List.map_cons, String.join_cons, String.append_assoc]

theorem joinKind_text {kind : Sql.JoinKind} {k : JoinKind} (h : JoinKind.ofSql kind = .ok k) :
    k.text = kind.print := by
  cases kind <;> cases h <;> rfl

theorem conditionOfSql_cross (c : Sql.Constraint) : conditionOfSql .cross c = .ok (false, .none) := by
  cases c <;> rfl

theorem conditionOfSql_eq_ok {p : Joined} (hk : p.kind ≠ .cross) (c : Sql.Constraint) :
    conditionOfSql p.kind c = .ok (p.natural, p.condition) ↔ p.Keeps c := by
  obtain ⟨k, natural, right, condition⟩ := p
  cases c with
  | on e =>
    simp only [conditionOfSql, if_neg hk]
    constructor
    · intro h
      obtain ⟨x, hx, h⟩ := bind_eq_ok h
      cases h
      exact ⟨rfl, x, hx, rfl⟩
    · rintro ⟨rfl, x, hx, rfl⟩
      rw [hx]
      rfl
  | _ =>
    simp only [conditionOfSql, if_neg hk, decide_eq_true hk]
    constructor
    · rintro ⟨⟩
      exact ⟨rfl, rfl⟩
    · rintro ⟨rfl, rfl⟩
      rfl

theorem joinCondition_eq_ok {j : Sql.Join} {p : Joined} (hk : JoinKind.ofSql j.kind = .ok p.kind) :
    conditionOfSql p.kind j.constraint = .ok (p.natural, p.condition) ↔ p.Keeps j.condition := by
  have hcross := joinKind_cross hk
  unfold Sql.Join.condition
  by_cases h : p.kind = .cross
  · rw [if_pos (hcross.mp h), h, conditionOfSql_cross]
    obtain ⟨k, natural, right, condition⟩ := p
    constructor
    · rintro ⟨⟩
      exact ⟨rfl, rfl⟩
    · rintro ⟨rfl, rfl⟩
      rfl
  · rw [if_neg (mt hcross.mpr h)]
    exact conditionOfSql_eq_ok h j.constraint

theorem tableOfSql_joined_eq_ok {l : Sql.Table} {isGlobal : Bool} {kind : Sql.JoinKind} {r : Sql.Factor}
    {matching : Option String} {c : Sql.Constraint} {f : FromItem} :
    FromItem.ofSql (.joined l isGlobal kind r matching c) = .ok f ↔
      ∃ f' p, FromItem.ofSql l = .ok f' ∧ Joined.Mirrors ⟨kind, r, c⟩ p ∧ f = p.after f' := by
  simp only [FromItem.ofSql]
  constructor
  · intro h
    obtain ⟨f', hl, h⟩ := bind_eq_ok h
    obtain ⟨k, hk, h⟩ := bind_eq_ok h
    obtain ⟨⟨natural, condition⟩, hc, h⟩ := bind_eq_ok h
    obtain ⟨right, hr, h⟩ := bind_eq_ok h
    cases h
    let j : Sql.Join := ⟨kind, r, c⟩
    let p : Joined := ⟨k, natural, right, condition⟩
    have hp : Joined.Mirrors j p := ⟨hk, joinKind_text hk, hr, (joinCondition_eq_ok hk).1 hc⟩
    exact ⟨f', p, hl, hp, rfl⟩
  · rintro ⟨f', p, hl, ⟨hk, -, hr, hcondition⟩, rfl⟩
    have hc := (joinCondition_eq_ok hk).2 hcondition
    rw [hl, hk]
    change (conditionOfSql p.kind c >>= _) = _
    rw [hc, hr]
    rfl

theorem exists_of_forall₂_append {α β : Type} {R : α → β → Prop} {as bs : List α} {cs : List β}
    (h : List.Forall₂ R (as ++ bs) cs) :
    ∃ cs₁ cs₂, cs = cs₁ ++ cs₂ ∧ List.Forall₂ R as cs₁ ∧ List.Forall₂ R bs cs₂ :=
  ⟨cs.take as.length, cs.drop as.length, (List.take_append_drop _ _).symm,
    (List.forall₂_take_append _ _ _ h.flip).flip, (List.forall₂_drop_append _ _ _ h.flip).flip⟩

theorem tableOfSql_eq_ok : (t : Sql.Table) → {f : FromItem} → FromItem.ofSql t = .ok f ↔
    ∃ first ps, FromItem.ofFactor t.relation = .ok first ∧ List.Forall₂ Joined.Mirrors t.joins ps ∧
      f = ps.foldl Joined.after first
  | .factor t, f => by
    simp only [FromItem.ofSql, Sql.Table.relation, Sql.Table.joins, List.forall₂_nil_left_iff]
    constructor
    · exact fun h => ⟨f, [], h, rfl, rfl⟩
    · rintro ⟨first, ps, h, rfl, rfl⟩
      exact h
  | .joined l isGlobal kind r matching c, f => by
    rw [tableOfSql_joined_eq_ok]
    constructor
    · rintro ⟨f', p, hl, hp, rfl⟩
      obtain ⟨first, ps, hfirst, hps, rfl⟩ := (tableOfSql_eq_ok l).1 hl
      refine ⟨first, ps ++ [p], hfirst, List.rel_append hps (.cons hp .nil), ?_⟩
      rw [List.foldl_append, List.foldl_cons, List.foldl_nil]
    · rintro ⟨first, qs, hfirst, hqs, rfl⟩
      obtain ⟨ps, last, rfl, hps, hlast⟩ := exists_of_forall₂_append hqs
      obtain _ | ⟨hp, _ | _⟩ := hlast
      rename_i p
      refine ⟨ps.foldl Joined.after first, p, (tableOfSql_eq_ok l).2 ⟨first, ps, hfirst, hps, rfl⟩, hp, ?_⟩
      rw [List.foldl_append, List.foldl_cons, List.foldl_nil]

/-- Everything in a join that has been read can be laid out. -/
structure Joined.Lowers (j : Sql.Join) : Prop where
  kind : ∃ k, JoinKind.ofSql j.kind = .ok k
  right : ∃ f, FromItem.ofFactor j.right = .ok f
  condition : ∀ e, j.condition = .on e → ∃ x, (readingOf e).bare = .ok x

theorem Joined.exists_keeps (c : Sql.Constraint) (k : JoinKind) (right : FromItem)
    (h : ∀ e, c = .on e → ∃ x, (readingOf e).bare = .ok x) :
    ∃ natural condition, Joined.Keeps ⟨k, natural, right, condition⟩ c := by
  cases c with
  | on e =>
    obtain ⟨x, hx⟩ := h e rfl
    exact ⟨false, .on x, rfl, x, hx, rfl⟩
  | byColumns cs => exact ⟨false, .byColumns (cs.map Sql.ObjectName.print), rfl, rfl⟩
  | natural => exact ⟨true, .none, rfl, rfl⟩
  | none => exact ⟨false, .none, rfl, rfl⟩

theorem Joined.exists_mirrors_iff (j : Sql.Join) : (∃ p, Joined.Mirrors j p) ↔ Joined.Lowers j := by
  constructor
  · rintro ⟨p, hkind, -, hright, hcondition⟩
    refine ⟨⟨_, hkind⟩, ⟨_, hright⟩, fun e he => ?_⟩
    rw [he] at hcondition
    obtain ⟨-, x, hx, -⟩ := hcondition
    exact ⟨x, hx⟩
  · rintro ⟨⟨k, hk⟩, ⟨right, hright⟩, hcondition⟩
    obtain ⟨natural, condition, hkeeps⟩ := Joined.exists_keeps j.condition k right hcondition
    exact ⟨⟨k, natural, right, condition⟩, hk, joinKind_text hk, hright, hkeeps⟩

theorem exists_forall₂_iff {α β : Type} {R : α → β → Prop} {as : List α} :
    (∃ bs, List.Forall₂ R as bs) ↔ ∀ a ∈ as, ∃ b, R a b := by
  induction as with
  | nil => simp
  | cons a as ih =>
    rw [List.forall_mem_cons, ← ih]
    constructor
    · rintro ⟨_, _ | ⟨h, hrest⟩⟩
      exact ⟨⟨_, h⟩, _, hrest⟩
    · rintro ⟨⟨b, h⟩, bs, hrest⟩
      exact ⟨b :: bs, .cons h hrest⟩

/-- Joins keep their order and their conditions. A table phrase can be laid out if its first table and
everything in its joins can; the layout is the first table and after it each join in the order in which
it is written. The phrases that the parser reads have no cross joins with a condition. -/
theorem joins_keep_order (t : Sql.Table) :
    ((∃ f, FromItem.ofSql t = .ok f) ↔
      (∃ f, FromItem.ofFactor t.relation = .ok f) ∧ ∀ j ∈ t.joins, Joined.Lowers j) ∧
    (∀ f, FromItem.ofSql t = .ok f → ∃ first ps, FromItem.ofFactor t.relation = .ok first ∧
      List.Forall₂ Joined.Mirrors t.joins ps ∧
      ∀ (s : Style) (d : Nat), Piece.textOf s (f.pieces s d) =
        Piece.textOf s (first.pieces s d) ++ String.join (ps.map (Joined.text s (joinDepth s d)))) ∧
    ∀ g scope ts left, Sql.Parser.tableWithJoins g scope ts = .ok t left →
      ∀ j ∈ t.joins, j.condition = j.constraint := by
  refine ⟨?_, ?_, ?_⟩
  · have hjoins : (∀ j ∈ t.joins, Joined.Lowers j) ↔ ∃ ps, List.Forall₂ Joined.Mirrors t.joins ps := by
      simp only [exists_forall₂_iff, Joined.exists_mirrors_iff]
    rw [hjoins]
    constructor
    · rintro ⟨f, h⟩
      obtain ⟨first, ps, hfirst, hps, -⟩ := (tableOfSql_eq_ok t).1 h
      exact ⟨⟨first, hfirst⟩, ps, hps⟩
    · rintro ⟨⟨first, hfirst⟩, ps, hps⟩
      exact ⟨_, (tableOfSql_eq_ok t).2 ⟨first, ps, hfirst, hps, rfl⟩⟩
  · intro f h
    obtain ⟨first, ps, hfirst, hps, rfl⟩ := (tableOfSql_eq_ok t).1 h
    exact ⟨first, ps, hfirst, hps, fun s d => textOf_foldl_after s d ps first⟩
  · intro g scope ts left hread j hj
    exact (Sql.Parser.tableWithJoins_gives g scope ts t left hread).condition_eq hj

/-- `a join b on x natural left join c cross join d inner join e using (y)`. -/
theorem joins_keep_mixed_order :
    let factor (n : String) : Sql.Factor := .table [⟨n, none⟩] none
    let t : Sql.Table :=
      .joined
        (.joined
          (.joined
            (.joined (.factor (factor "a")) false .plain (factor "b") none (.on (.ident ⟨"x", none⟩)))
            false .left (factor "c") none .natural)
          false .cross (factor "d") none .none)
        false .inner (factor "e") none (.byColumns [[⟨"y", none⟩]])
    (∀ j ∈ t.joins, Joined.Lowers j) ∧
      ∃ first ps, FromItem.ofFactor (factor "a") = .ok first ∧ List.Forall₂ Joined.Mirrors t.joins ps ∧
        "a\n  JOIN b\n    ON x\n  NATURAL LEFT JOIN c\n  CROSS JOIN d\n  INNER JOIN e USING(y)" =
          Piece.textOf {} (first.pieces {} 0) ++ String.join (ps.map (Joined.text {} 1)) := by
  intro factor t
  obtain ⟨hsucceeds, hlaid, -⟩ := joins_keep_order t
  let item (n : String) : FromItem := .table ⟨none, n, none⟩
  let f : FromItem :=
    .join .inner false
      (.join .cross false
        (.join .left true
          (.join .plain false (item "a") (item "b") (.on (.column ["x"] false)))
          (item "c") .none)
        (item "d") .none)
      (item "e") (.byColumns ["y"])
  have hf : FromItem.ofSql t = .ok f := rfl
  obtain ⟨first, ps, hfirst, hps, htext⟩ := hlaid f hf
  have hwhole : Piece.textOf {} (f.pieces {} 0) =
      "a\n  JOIN b\n    ON x\n  NATURAL LEFT JOIN c\n  CROSS JOIN d\n  INNER JOIN e USING(y)" := by
    decide
  exact ⟨(hsucceeds.1 ⟨f, hf⟩).2, first, ps, hfirst, hps, hwhole.symm.trans (htext {} 0)⟩

end SqlLayout.Layout
