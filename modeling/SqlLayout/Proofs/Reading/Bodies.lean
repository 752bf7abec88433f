import SqlLayout.Proofs.Reading.Calls
import SqlLayout.Proofs.Reading.Tables

/-!
Selects, the operators between them, and whole queries. Operators between queries are read from left to
right, and an intersection takes its operands before the other operators do.
-/

namespace SqlLayout.Sql
namespace Parser

variable {d : Nat} {ts ts₁ ts₂ us : List Token} {w : String} {b b' : Body}

/-! ### Selects -/

/-- One item of a projection. -/
inductive Projects (d : Nat) : List Token → Target → Prop
  | item {ts : List Token} {x : Expr} (name : Option String) (h : Item d ts x) (hx : IsTarget x) :
    Projects d (ts ++ asTokens name) ⟨x, name.map fun n => ⟨n, none⟩⟩
  | star : Projects d [.symbol "*"] ⟨.star, none⟩
  | pathStar {w : String} (ws : List String) (hw : Lexer.keyOf (.word w) ∉ nonStarters) :
    Projects d (dotted w ws ++ [.symbol ".", .symbol "*"]) ⟨.pathStar (bare (w :: ws)), none⟩

theorem Projects.reads {t : Target} (h : Projects d ts t)
    (hus : Follows [",", ")", ";"] afterTargets us) :
    Reads (target (.atDepth (d + 1))) ts us t := by
  cases h with
  | item name h hx =>
    have hstops : Stops (asTokens name ++ us) := by
      cases name with
      | none => exact hus.stops (by decide) (by decide)
      | some n => exact ⟨rfl, rfl⟩
    obtain ⟨paren, hlead⟩ := h.leads
    exact reads_target hx (h.reads hstops) (hlead.append hstops.1) hus
  | star => exact reads_target_star
  | pathStar ws hw => exact reads_target_pathStar

theorem Projects.key_not_mem {t : Target} (h : Projects d ts t) : frontKey (ts ++ us) ∉ nonStarters := by
  cases h with
  | item name h hx =>
    obtain ⟨paren, hlead⟩ := h.leads
    rw [List.append_assoc]
    exact hlead.key_not_mem
  | star => exact (by decide : "" ∉ nonStarters)
  | pathStar ws hw => exact hw

theorem Listed.key_not_mem {l : List Target} (h : Listed (Projects d) ts l) :
    frontKey (ts ++ us) ∉ nonStarters := by
  cases h with
  | one h => exact h.key_not_mem
  | cons h hrest =>
    rw [List.append_assoc]
    exact h.key_not_mem

/-- The tokens of a select after its first word, and whether it has tables. -/
inductive Selects (d : Nat) : Bool → List Token → Select → Prop
  | intro {ts₀ ts₁ ts₂ ts₃ ts₄ ts₅ : List Token} {distinct : Distinct} {targets : List Target}
      {tables : List Table}
      {condition having : Option Expr} {groups : List Expr} (hdistinct : Distincts d ts₀ distinct)
      (htargets : Listed (Projects d) ts₁ targets) (htables : Sources d ts₂ tables)
      (hcondition : ParsesOption d "WHERE" ts₃ condition) (hgroups : Groups d ts₄ groups)
      (hhaving : ParsesOption d "HAVING" ts₅ having) :
      Selects d (!tables.isEmpty) (ts₀ ++ (ts₁ ++ (ts₂ ++ (ts₃ ++ (ts₄ ++ ts₅)))))
        ⟨distinct, none, targets, none, tables, [], condition, groups, false, [], [], [], [],
          having, [], none, false⟩

theorem Follows.without {ss ks ks' : List String} {k : String} (h : Follows ss ks us)
    (hk : frontKey us ≠ k) (hks : ks ⊆ k :: ks') : Follows ss ks' us := by
  unfold Follows at h ⊢
  unfold frontKey at hk
  cases hfront : front us with
  | word w =>
    rw [hfront] at h hk
    exact (List.mem_cons.1 (hks h)).resolve_left hk
  | _ =>
    rw [hfront] at h
    exact h

theorem Sources.key_ne {l : List Table} {k : String} (h : Sources d ts l) (hl : l ≠ [])
    (hk : Lexer.keyOf (.word "FROM") ≠ k) : frontKey (ts ++ us) ≠ k := by
  cases h with
  | none => exact absurd rfl hl
  | some h => exact hk

theorem Groups.key_ne {xs : List Expr} {k : String} (h : Groups d ts xs) (hus : frontKey us ≠ k)
    (hk : Lexer.keyOf (.word "GROUP") ≠ k) : frontKey (ts ++ us) ≠ k := by
  cases h with
  | none => exact hus
  | some h => exact hk

theorem Selects.reads {hasTables : Bool} {x : Select} (h : Selects d hasTables ts x)
    (hus : Follows [")", ";"] afterSelect us) (hfor : hasTables = false → frontKey us ≠ "FOR") :
    Reads (select (.atDepth (d + 1))) ts us x := by
  obtain ⟨hdistinct, htargets, htables, hcondition, hgroups, hhaving⟩ := h
  rename_i ts₀ ts₁ ts₂ ts₃ ts₄ ts₅ distinct targets tables condition having groups
  have h₅ : Follows [")", ";"] ("HAVING" :: afterSelect) (ts₅ ++ us) :=
    hus.starts hhaving.starts (by decide) (by decide)
  have h₄ : Follows [")", ";"] ("GROUP" :: "HAVING" :: afterSelect) (ts₄ ++ (ts₅ ++ us)) :=
    h₅.starts hgroups.starts (by decide) (by decide)
  have h₃ : Follows [")", ";"] afterJoins (ts₃ ++ (ts₄ ++ (ts₅ ++ us))) :=
    h₄.starts hcondition.starts (by decide) (by decide)
  have h₂ : Follows [")", ";"] ("FROM" :: afterJoins) (ts₂ ++ (ts₃ ++ (ts₄ ++ (ts₅ ++ us)))) :=
    h₃.starts htables.starts (by decide) (by decide)
  -- A lock cannot follow a projection, where its first word would be an alias.
  have hlock : frontKey (ts₂ ++ (ts₃ ++ (ts₄ ++ (ts₅ ++ us)))) ≠ "FOR" := by
    by_cases htables' : tables = []
    · subst htables'
      cases htables with
      | none =>
        refine hcondition.key_ne (hgroups.key_ne (hhaving.key_ne (hfor rfl) ?_) ?_) ?_ <;> decide
      | some h => cases h
    · exact htables.key_ne htables' (by decide)
  have hfollows : Follows [")", ";"] afterTargets (ts₂ ++ (ts₃ ++ (ts₄ ++ (ts₅ ++ us)))) :=
    h₂.without hlock (by decide)
  have hkey : frontKey (ts₁ ++ (ts₂ ++ (ts₃ ++ (ts₄ ++ (ts₅ ++ us))))) ∉ nonStarters :=
    htargets.key_not_mem
  have hne (k : String) (hk : k ∈ nonStarters) :
      frontKey (ts₁ ++ (ts₂ ++ (ts₃ ++ (ts₄ ++ (ts₅ ++ us))))) ≠ k := by
    rintro rfl
    exact hkey hk
  have htargets' : Reads (commaSeparated (target (.atDepth (d + 1)))) ts₁
      (ts₂ ++ (ts₃ ++ (ts₄ ++ (ts₅ ++ us)))) targets :=
    (htargets.many (by decide : "," ∈ [",", ")", ";"]) (fun hitem hus => hitem.reads hus)
      (hfollows.mono (by decide) (List.Subset.refl _)) (hfollows.symbol_ne (by decide))).reads
  have hall : ts₁ ++ (ts₂ ++ (ts₃ ++ (ts₄ ++ ts₅))) ++ us = ts₁ ++
      (ts₂ ++ (ts₃ ++ (ts₄ ++ (ts₅ ++ us)))) := by
    simp only [List.append_assoc]
  have hviews : Reads (repeatFrom ([] : List String) fun acc => do
      if ← words? ["LATERAL", "VIEW"] then return .inl (acc ++ [← lateralView (.atDepth (d + 1))])
      else return .inr acc) [] (ts₃ ++ (ts₄ ++ (ts₅ ++ us))) [] := by
    have hlateral : frontKey ([] ++ (ts₃ ++ (ts₄ ++ (ts₅ ++ us)))) ≠ "LATERAL" := h₃.key_ne (by decide)
    exact (Turns.done (Reads.wordsElse hlateral (Reads.pure _ _))).reads
  have hcondition' : Reads (afterWord "WHERE" (Grammar.atDepth (d + 1)).anyExpr) ts₃
      (ts₄ ++ (ts₅ ++ us)) condition :=
    hcondition.reads (h₄.stops (by decide) (by decide)) (h₄.key_ne (by decide))
  have hlist (k : String) (hk : k ∉ "" :: "HAVING" :: afterSelect) {p : Parser (List String)} :
      Reads (do if ← words? [k, "BY"] then p else return []) [] (ts₅ ++ us) ([] : List String) :=
    Reads.wordsElse (h₅.key_ne hk) (Reads.pure _ _)
  have hinto : frontKey (ts₂ ++ (ts₃ ++ (ts₄ ++ (ts₅ ++ us)))) ≠ "INTO" := h₂.key_ne (by decide)
  refine Reads.bind (hall ▸ hdistinct.reads hkey) ?_
  refine Reads.skip (reads_afterWord_none (hall ▸ hne "TOP" (by decide))) ?_
  refine Reads.skip (reads_nextIsWord "FROM" _) ?_
  rw [hall, beq_eq_false_iff_ne.2 (hne "FROM" (by decide))]
  refine Reads.bind (by simpa only [List.append_assoc] using htargets') ?_
  refine Reads.skip (reads_afterWord_none (by simpa only [List.append_assoc] using hinto)) ?_
  refine htables.reads (by simpa only [List.append_assoc] using h₃) ?_
  refine Reads.skip (by simpa only [List.append_assoc] using hviews) ?_
  refine Reads.bind (by simpa only [List.append_assoc] using hcondition') ?_
  refine Reads.bind (hgroups.reads h₅) ?_
  refine Reads.skip (hlist "CLUSTER" (by decide)) (Reads.skip (hlist "DISTRIBUTE" (by decide)) ?_)
  refine Reads.wordsElse (h₅.key_ne (by decide)) (Reads.skip (Reads.pure _ _) ?_)
  refine Reads.last (hhaving.reads (hus.stops (by decide) (by decide)) (hus.key_ne (by decide))) ?_
  refine Reads.skip (Reads.wordElse (hus.key_ne (by decide)) ?_) ?_ (a := ([], none, false))
  · exact Reads.wordElse (hus.key_ne (by decide)) (Reads.pure _ us)
  · exact Reads.pure _ us

/-! ### Operators between queries -/

/-- A list of rows. -/
inductive Rows (d : Nat) : List Token → List Expr → Prop
  | intro {ts : List Token} {xs : List Expr} (h : Listed (Item d) ts xs) :
      Rows d (.symbol "(" :: (ts ++ [.symbol ")"])) xs

/-- A body without an operator between queries. It tells whether a lock may follow it. -/
inductive Simple (d : Nat) : Bool → List Token → Body → Prop
  | select {hasTables : Bool} {ts : List Token} {x : Select} (h : Selects d hasTables ts x) :
      Simple d hasTables (.word "SELECT" :: ts) (.select x)
  | query {ts : List Token} {q : Query} (h : ParsesQuery (d + 1) ts q) :
      Simple d true (.symbol "(" :: (ts ++ [.symbol ")"])) (.query q)
  | values {ts : List Token} {rows : List (List Expr)} (h : Listed (Rows d) ts rows) :
      Simple d true (.word "VALUES" :: ts) (.values false false rows)

/-- One row, and whether `ROW` was written before it. -/
def row (g : Grammar) : Parser (Bool × List Expr) := do
  let explicit ← word? "ROW"
  return (explicit, ← parens g.exprs)

theorem Rows.reads {xs : List Expr} (h : Rows d ts xs) :
    Reads (row (.atDepth (d + 1))) ts us (false, xs) := by
  obtain ⟨h⟩ := h
  exact Reads.skip (reads_word?_of_ne (show "" ≠ "ROW" by decide))
    (Reads.map (reads_parens (h.exprs_close us)))

theorem Listed.many_rows {rows : List (List Expr)} (h : Listed (Rows d) ts rows)
    (hus : front us ≠ .symbol ",") :
    Many (symbol? ",") (row (.atDepth (d + 1))) ts us (rows.map (false, ·)) := by
  induction h with
  | one h => exact Many.one h.reads (reads_symbol?_of_ne hus)
  | cons h hrest ih => exact Many.cons h.reads (reads_symbol? "," _) ih

theorem Listed.reads_rows {l : List (List Expr)} (h : Listed (Rows d) ts l)
    (hus : front us ≠ .symbol ",") : Reads (rows (.atDepth (d + 1))) ts us (false, l) := by
  have hpair : ((l.map fun xs => (false, xs)).any (·.1), (l.map fun xs => (false, xs)).map (·.2)) =
      (false, l) := by
    simp [Function.comp_def]
  have hmap := Reads.map
      (f := fun marked : List (Bool × List Expr) => (marked.any (·.1), marked.map (·.2)))
    (h.many_rows hus).reads
  rwa [hpair] at hmap

theorem Simple.reads {hasTables : Bool} {b : Body} (h : Simple d hasTables ts b)
    (hus : Follows [")", ";"] afterSelect us) (hfor : hasTables = false → frontKey us ≠ "FOR") :
    Reads (simpleBody (.atDepth (d + 1))) ts us b := by
  cases h with
  | select h => exact Reads.wordThen rfl (h.reads hus hfor).map
  | query h =>
    refine Reads.wordElse (show "" ≠ "SELECT" by decide) (Reads.symbolThen (Reads.bind (h _ rfl) ?_))
    exact Reads.last (reads_symbol ")" us) (Reads.pure _ us)
  | values h =>
    refine Reads.wordElse (show Lexer.keyOf (.word "VALUES") ≠ "SELECT" by decide) ?_
    refine Reads.symbolElse (fun heq => by cases heq) ?_
    refine Reads.take (reads_oneOf? (t := .word "VALUES") (by decide) (by decide)) ?_
    exact Reads.last (h.reads_rows (hus.symbol_ne (by decide))) (Reads.pure _ us)

/-- The tokens of an operator between queries. -/
def setTokens (k : String) (all : Bool) : List Token :=
  .word k :: wordTokens "ALL" all

/-- Bodies that are joined from left to right by the operators of a table. -/
inductive Chained (ops : List (String × SetOperator)) (P : Bool → List Token → Body → Prop) :
    Bool → List Token → Body → Prop
  | one {f : Bool} {ts : List Token} {b : Body} (h : P f ts b) : Chained ops P f ts b
  | op {f f' : Bool} {ts ts' : List Token} {b b' : Body} {k : String} {op : SetOperator} (all : Bool)
      (h : Chained ops P f ts b) (hop : (k, op) ∈ ops) (h' : P f' ts' b') :
      Chained ops P f' (ts ++ (setTokens k all ++ ts')) (.setOp b op (if all then .all else .none) b')

/-- The words that a body may start with. -/
def OpensBody (ts : List Token) : Prop :=
  ∀ us, front (ts ++ us) ∈ [.word "SELECT", .word "VALUES", .symbol "("]

theorem OpensBody.key_ne {k : String} (h : OpensBody ts) (hk : k ∉ ["SELECT", "VALUES", ""]) :
    frontKey (ts ++ us) ≠ k := by
  have hmem := h us
  rw [frontKey]
  simp only [List.mem_cons, List.not_mem_nil, or_false, not_or] at hmem hk
  obtain h | h | h := hmem <;> rw [h]
  · exact fun heq => hk.1 heq.symm
  · exact fun heq => hk.2.1 heq.symm
  · exact fun heq => hk.2.2 heq.symm

theorem OpensBody.symbol_ne {t : String} (h : OpensBody ts) (ht : t ≠ "(") :
    front (ts ++ us) ≠ .symbol t := by
  have hmem := h us
  simp only [List.mem_cons, List.not_mem_nil, or_false] at hmem
  obtain h | h | h := hmem <;> rw [h]
  · exact fun heq => by cases heq
  · exact fun heq => by cases heq
  · exact fun heq => ht (Token.symbol.inj heq).symm

theorem reads_setQuantifier (all : Bool) (h : OpensBody ts) :
    Reads setQuantifier (wordTokens "ALL" all) (ts ++ us) (if all then .all else .none) := by
  have hkey (k : String) (hk : k ∉ ["SELECT", "VALUES", ""]) : frontKey (ts ++ us) ≠ k := h.key_ne hk
  cases all with
  | true =>
    refine Reads.wordsElse (show Lexer.keyOf (.word "ALL") ≠ "DISTINCT" by decide) ?_
    refine Reads.wordsElse (show Lexer.keyOf (.word "ALL") ≠ "BY" by decide) (Reads.wordThen rfl ?_)
    exact Reads.wordsElse (hkey _ (by decide)) (Reads.pure _ _)
  | false =>
    refine Reads.wordsElse (hkey _ (by decide)) (Reads.wordsElse (hkey _ (by decide)) ?_)
    exact Reads.wordElse (hkey _ (by decide)) (Reads.wordElse (hkey _ (by decide)) (Reads.pure _ _))

/-- Tokens that may follow a body, which tells whether a lock is among them. -/
structure Before (ks : List String) (mayLock : Bool) (us : List Token) : Prop where
  follows : Follows [")", ";"] ks us
  lock : mayLock = false → frontKey us ≠ "FOR"

/-- One operator with the body after it. -/
def setStep (ops : List (String × SetOperator)) (part : Parser Body) (left : Body) :
    Parser (Body ⊕ Body) := do
  match ops.lookup (← peek).key with
  | some op =>
    let _ ← next
    let quantifier ← setQuantifier
    return .inl (.setOp left op quantifier (← part))
  | none => return .inr left

/-- What the bodies of a kind and the operators between them must be, so that they are read from left to
right. -/
structure Joinable (ops used : List (String × SetOperator)) (ks : List String)
    (P : Bool → List Token → Body → Prop) (part : Parser Body) : Prop where
  lookup : ∀ e ∈ used, ops.lookup e.1 = some e.2
  key : ∀ e ∈ used, Lexer.keyOf (.word e.1) = e.1
  lock : ∀ e ∈ used, e.1 ≠ "FOR"
  ends : ∀ k ∈ "" :: ks, ops.lookup k = none
  opens : ∀ {f ts b}, P f ts b → OpensBody ts
  reads : ∀ {f ts us b}, P f ts b → Before (used.map (·.1) ++ ks) f us → Reads part ts us b

section

variable {ops used : List (String × SetOperator)} {ks : List String} {part : Parser Body}
  {P : Bool → List Token → Body → Prop} {f : Bool}

theorem Joinable.reads_step (h : Joinable ops used ks P part) {k : String} {op : SetOperator}
    (hop : (k, op) ∈ used)
    (hts : P f ts b') (hus : Before (used.map (·.1) ++ ks) f us) (all : Bool) :
    Reads (setStep ops part b) (setTokens k all ++ ts) us
      (.inl (.setOp b op (if all then .all else .none) b')) := by
  refine Reads.peek fun l _ hkey => ?_
  change l.key = Lexer.keyOf (.word k) at hkey
  rw [hkey, h.key _ hop, h.lookup _ hop]
  refine Reads.next fun _ _ => Reads.bind (reads_setQuantifier all (h.opens hts)) ?_
  exact (h.reads hts hus).map

/-- An operator is one more turn after everything before it. -/
theorem Chained.reads_before {tail : List Token} {last : Body} (h : Joinable ops used ks P part)
    (hts : Chained used P f ts b) (hus : Before (used.map (·.1) ++ ks) f (tail ++ us))
    (hturns : Turns (setStep ops part) b tail us last) :
      Reads (setOperations ops part) (ts ++ tail) us last := by
  induction hts generalizing tail with
  | one hp => exact Reads.bind (h.reads hp hus) hturns.reads
  | @op f f' ts ts' b b' k op all hts hop hp ih =>
    have hmem : k ∈ used.map (·.1) ++ ks := List.mem_append_left _ (List.mem_map_of_mem hop)
    have hkey : Lexer.keyOf (.word k) = k := h.key _ hop
    rw [List.append_assoc]
    refine ih ⟨?_, fun _ => ?_⟩
      (Turns.turn _ (h.reads_step hop hp hus all) (List.cons_ne_nil _ _) hturns)
    · exact (hkey.symm ▸ hmem : Lexer.keyOf (.word k) ∈ used.map (·.1) ++ ks)
    · exact fun heq => h.lock _ hop (hkey.symm.trans heq)

theorem Chained.reads (h : Joinable ops used ks P part) (hts : Chained used P f ts b)
    (hus : Before ks f us) : Reads (setOperations ops part) ts us b := by
  have hnone : ops.lookup (frontKey us) = none := by
    refine h.ends _ ?_
    by_contra hmem
    exact hus.follows.key_ne hmem rfl
  have hdone : Turns (setStep ops part) b [] us b := by
    refine Turns.done (Reads.peek fun l _ hkey => ?_)
    rw [hkey, List.nil_append, hnone]
    exact Reads.pure _ us
  have hfollows : Before (used.map (·.1) ++ ks) f ([] ++ us) :=
    ⟨hus.follows.mono (List.Subset.refl _) (List.subset_append_right _ _), hus.lock⟩
  have hreads := Chained.reads_before h hts hfollows hdone
  rwa [List.append_nil] at hreads

end

/-- The words that may follow a body. -/
def afterBody : List String :=
  ["ORDER", "LIMIT", "OFFSET", "FOR"]

/-- The tokens of bodies joined by intersections. -/
abbrev Intersected (d : Nat) : Bool → List Token → Body → Prop :=
  Chained [("INTERSECT", .intersect)] (Simple d)

/-- The tokens of a whole body. -/
abbrev United (d : Nat) : Bool → List Token → Body → Prop :=
  Chained [("UNION", .union), ("EXCEPT", .except)] (Intersected d)

theorem Simple.opens {f : Bool} (h : Simple d f ts b) : OpensBody ts := by
  intro us
  cases h with
  | select => exact List.mem_cons_self
  | query => exact List.mem_cons_of_mem _ (List.mem_cons_of_mem _ List.mem_cons_self)
  | values => exact List.mem_cons_of_mem _ List.mem_cons_self

theorem Chained.opens {used : List (String × SetOperator)} {P : Bool → List Token → Body → Prop}
    {f : Bool}
    (hopens : ∀ {f ts b}, P f ts b → OpensBody ts) (h : Chained used P f ts b) : OpensBody ts := by
  induction h with
  | one hp => exact hopens hp
  | op all h hop hp ih =>
    intro us
    rw [List.append_assoc]
    exact ih _

theorem joinable_simple (d : Nat) : Joinable [("INTERSECT", .intersect)] [("INTERSECT", .intersect)]
    ("UNION" :: "EXCEPT" :: afterBody) (Simple d) (simpleBody (.atDepth (d + 1))) where
  lookup := by decide
  key := by decide
  lock := by decide
  ends := by decide
  opens := Simple.opens
  reads hts hus := hts.reads (hus.follows.mono (List.Subset.refl _) (by decide)) hus.lock

theorem joinable_intersected (d : Nat) :
    Joinable [("UNION", .union), ("EXCEPT", .except), ("MINUS", .minus)]
      [("UNION", .union), ("EXCEPT", .except)]
      afterBody (Intersected d)
        (setOperations [("INTERSECT", .intersect)] (simpleBody (.atDepth (d + 1)))) where
  lookup := by decide
  key := by decide
  lock := by decide
  ends := by decide
  opens := Chained.opens Simple.opens
  reads hts hus := Chained.reads (joinable_simple d) hts ⟨hus.follows, hus.lock⟩

theorem United.reads {f : Bool} (h : United d f ts b) (hus : Before afterBody f us) :
    Reads (body (.atDepth (d + 1))) ts us b :=
  Chained.reads (joinable_intersected d) h hus

/-! ### Queries -/

/-- The tokens of the word that tells whether a named query is kept. -/
def materializedTokens : Option Bool → List Token
  | none => []
  | some true => [.word "MATERIALIZED"]
  | some false => [.word "NOT", .word "MATERIALIZED"]

/-- The tokens of a named query. -/
inductive Named (d : Nat) : List Token → Cte → Prop
  | intro {w : String} (materialized : Option Bool) {ts : List Token} {q : Query}
      (hw : Lexer.keyOf (.word w) ≠ "RECURSIVE") (h : ParsesQuery (d + 1) ts q) :
      Named d (.word w :: .word "AS" ::
        (materializedTokens materialized ++ .symbol "(" :: (ts ++ [.symbol ")"])))
        ⟨⟨false, ⟨w, none⟩, []⟩, materialized, q, none⟩

/-- The tokens of the named queries before a query. -/
inductive Withs (d : Nat) : List Token → Bool → List Cte → Prop
  | none : Withs d [] false []
  | some (isRecursive : Bool) {ts : List Token} {ctes : List Cte} (h : Listed (Named d) ts ctes) :
      Withs d (.word "WITH" :: (wordTokens "RECURSIVE" isRecursive ++ ts)) isRecursive ctes

/-- The tokens of a query. A lock may not come right after a projection. -/
inductive Queried (d : Nat) : List Token → Query → Prop
  | intro {ts₀ ts₁ ts₂ ts₃ ts₄ : List Token} {isRecursive f : Bool} {ctes : List Cte} {b : Body}
      {items : List SortItem} {limit offset : Option Expr}
        (locks : List (Bool × Option String × Option Waiting))
      (hwith : Withs d ts₀ isRecursive ctes) (hbody : United d f ts₁ b) (horder : Orders d ts₂ items)
      (hlimit : Limits d ts₃ limit) (hoffset : ParsesOption d "OFFSET" ts₄ offset)
      (hlock : f = true ∨ locks = [] ∨ ts₂ ++ (ts₃ ++ ts₄) ≠ []) :
      Queried d (ts₀ ++ (ts₁ ++ (ts₂ ++ (ts₃ ++ (ts₄ ++ lockTokens locks)))))
        ⟨isRecursive, ctes, b, items, limit, offset, "", none, locks.map lockOf, none⟩

theorem Named.reads {c : Cte} (h : Named d ts c) (hus : frontKey us ≠ "FROM") :
    Reads (cte (.atDepth (d + 1))) ts us c := by
  obtain ⟨materialized, hw, h⟩ := h
  rename_i w ts q
  refine Reads.take (reads_name w _) (Reads.wordThen rfl (Reads.skip (Reads.pure _ _) ?_))
  have hquery {ts : List Token} {q : Query} {m : Option Bool} (h : ParsesQuery (d + 1) ts q) : Reads (do
      let q ← queryInParens (.atDepth (d + 1))
      return Cte.mk ⟨false, ⟨w, none⟩, []⟩ m q (← afterWord "FROM" ident))
        (.symbol "(" :: (ts ++ [.symbol ")"])) us
      ⟨⟨false, ⟨w, none⟩, []⟩, m, q, none⟩ :=
    Reads.last (reads_parens (h _ rfl)) (Reads.skip (reads_afterWord_none hus) (Reads.pure _ us))
  match materialized with
  | none =>
    refine Reads.wordElse (show "" ≠ "MATERIALIZED" by decide) ?_
    exact Reads.wordsElse (show "" ≠ "NOT" by decide) (Reads.skip (Reads.pure _ _) (hquery h))
  | some true => exact Reads.wordThen rfl (Reads.skip (Reads.pure _ _) (hquery h))
  | some false =>
    refine Reads.wordElse (show Lexer.keyOf (.word "NOT") ≠ "MATERIALIZED" by decide) ?_
    exact Reads.wordsThen [.word "NOT", .word "MATERIALIZED"] rfl
      (Reads.skip (Reads.pure _ _) (hquery h))

theorem Listed.many_named {ctes : List Cte} (h : Listed (Named d) ts ctes) (hfrom : frontKey us ≠ "FROM")
    (hcomma : front us ≠ .symbol ",") : Many (symbol? ",") (cte (.atDepth (d + 1))) ts us ctes := by
  induction h with
  | one h => exact Many.one (h.reads hfrom) (reads_symbol?_of_ne hcomma)
  | cons h hrest ih => exact Many.cons (h.reads (show "" ≠ "FROM" by decide)) (reads_symbol? "," _) ih

theorem Listed.key_ne_recursive {ctes : List Cte} (h : Listed (Named d) ts ctes) :
    frontKey (ts ++ us) ≠ "RECURSIVE" := by
  cases h with
  | one h =>
    obtain ⟨_, hw, _⟩ := h
    exact hw
  | cons h hrest =>
    obtain ⟨_, hw, _⟩ := h
    exact hw

/-- A query after the named queries of its `WITH`. -/
def queryOf (g : Grammar) (isRecursive : Bool) (ctes : List Cte) : Parser Query := do
  match ← mutationBody? g with
  | some text => return .mk isRecursive ctes (.other text) [] none none "" none [] none
  | none =>
    let body ← body g
    let order ← orderBy g
    let (limit, offset) ← limits g
    let fetch ← afterWord "FETCH" fetch
    let (locks, forClause) ← forClauses
    return .mk isRecursive ctes body order limit (offset.map (·.1)) ((offset.map (·.2)).getD "") fetch
      locks forClause

theorem OpensBody.reads_mutationBody? {g : Grammar} (h : OpensBody ts) :
    Reads (mutationBody? g) [] (ts ++ us) none := by
  refine Reads.skip (reads_oneOf?_of_not_mem ?_) (Reads.pure none _)
  simp only [List.mem_cons, List.not_mem_nil, or_false, not_or]
  exact ⟨h.key_ne (by decide), h.key_ne (by decide), h.key_ne (by decide), h.key_ne (by decide)⟩

theorem United.opens {f : Bool} (h : United d f ts b) : OpensBody ts :=
  Chained.opens (Chained.opens Simple.opens) h

/-- No lock comes right after a body that would take its first word for a name. -/
theorem lock_not_first {ts₃ ts₄ : List Token} {items : List SortItem} {limit offset : Option Expr}
    {locks : List (Bool × Option String × Option Waiting)} (horder : Orders d ts₂ items)
    (hlimit : Limits d ts₃ limit) (hoffset : ParsesOption d "OFFSET" ts₄ offset)
    (hlock : locks = [] ∨ ts₂ ++ (ts₃ ++ ts₄) ≠ []) (hus : Follows [")", ";"] [] us) :
    frontKey (ts₂ ++ (ts₃ ++ (ts₄ ++ (lockTokens locks ++ us)))) ≠ "FOR" := by
  obtain rfl | hlock := hlock
  · refine horder.starts.key_ne (by decide) (hlimit.starts.key_ne (by decide) ?_)
    exact hoffset.starts.key_ne (by decide) (hus.key_ne (by decide))
  · obtain rfl | ⟨r, rfl⟩ := horder.starts
    · obtain rfl | ⟨r, rfl⟩ := hlimit.starts
      · obtain rfl | ⟨r, rfl⟩ := hoffset.starts
        · exact absurd rfl hlock
        · exact (by decide : Lexer.keyOf (.word "OFFSET") ≠ "FOR")
      · exact (by decide : Lexer.keyOf (.word "LIMIT") ≠ "FOR")
    · exact (by decide : Lexer.keyOf (.word "ORDER") ≠ "FOR")

theorem reads_queryOf {ts₃ ts₄ : List Token} {f : Bool} {items : List SortItem}
    {limit offset : Option Expr} {locks : List (Bool × Option String × Option Waiting)}
    (isRecursive : Bool) (ctes : List Cte) (hbody : United d f ts₁ b) (horder : Orders d ts₂ items)
    (hlimit : Limits d ts₃ limit) (hoffset : ParsesOption d "OFFSET" ts₄ offset)
    (hlock : f = true ∨ locks = [] ∨ ts₂ ++ (ts₃ ++ ts₄) ≠ []) (hus : Follows [")", ";"] [] us) :
    Reads (queryOf (.atDepth (d + 1)) isRecursive ctes)
      (ts₁ ++ (ts₂ ++ (ts₃ ++ (ts₄ ++ lockTokens locks)))) us
      ⟨isRecursive, ctes, b, items, limit, offset, "", none, locks.map lockOf, none⟩ := by
  have h₄ : Follows [")", ";"] afterLimit (lockTokens locks ++ us) := follows_locks locks hus
  have h₃ : Follows [")", ";"] ["OFFSET", "FOR"] (ts₄ ++ (lockTokens locks ++ us)) :=
    h₄.starts hoffset.starts (by decide) (by decide)
  have h₂ : Follows [")", ";"] afterOrder (ts₃ ++ (ts₄ ++ (lockTokens locks ++ us))) :=
    h₃.starts hlimit.starts (by decide) (by decide)
  have h₁ : Follows [")", ";"] afterBody (ts₂ ++ (ts₃ ++ (ts₄ ++ (lockTokens locks ++ us)))) :=
    h₂.starts horder.starts (by decide) (by decide)
  have hmutation : Reads (mutationBody? (.atDepth (d + 1))) []
      (ts₁ ++ (ts₂ ++ (ts₃ ++ (ts₄ ++ lockTokens locks))) ++ us) none := by
    rw [List.append_assoc]
    exact hbody.opens.reads_mutationBody?
  have hbody' : Reads (body (.atDepth (d + 1))) ts₁
      (ts₂ ++ (ts₃ ++ (ts₄ ++ (lockTokens locks ++ us)))) b := by
    refine hbody.reads ⟨h₁, ?_⟩
    rintro rfl
    exact lock_not_first horder hlimit hoffset (hlock.resolve_left Bool.false_ne_true) hus
  have horder' : Reads (orderBy (.atDepth (d + 1))) ts₂ (ts₃ ++ (ts₄ ++ (lockTokens locks ++ us)))
      items :=
    horder.reads h₂
  have hlimits : Reads (limits (.atDepth (d + 1))) (ts₃ ++ ts₄) (lockTokens locks ++ us)
      (limit, offset.map (·, "")) := reads_limits hlimit hoffset h₄
  refine Reads.skip hmutation (Reads.bind (by simpa only [List.append_assoc] using hbody') ?_)
  refine Reads.bind (by simpa only [List.append_assoc] using horder') ?_
  rw [← List.append_assoc]
  refine Reads.bind hlimits ?_
  refine Reads.skip (reads_afterWord_none (h₄.key_ne (by decide))) ?_
  refine Reads.last (reads_forClauses locks hus) ?_
  have hexpr : (offset.map (·, "")).map (·.1) = offset := by cases offset <;> rfl
  have hunit : ((offset.map (·, "")).map (·.2)).getD "" = "" := by cases offset <;> rfl
  rw [hexpr, hunit]
  exact Reads.pure _ us

theorem Queried.reads {q : Query} (h : Queried d ts q) (hus : Follows [")", ";"] [] us) :
    Reads (Grammar.atDepth (d + 2)).query ts us q := by
  obtain ⟨locks, hwith, hbody, horder, hlimit, hoffset, hlock⟩ := h
  rename_i ts₀ ts₁ ts₂ ts₃ ts₄ isRecursive f ctes b items limit offset
  have hopens : OpensBody ts₁ := hbody.opens
  have hrest (isRecursive : Bool) (ctes : List Cte) :=
    reads_queryOf isRecursive ctes hbody horder hlimit hoffset hlock hus
  have hfront : frontKey (ts₁ ++ (ts₂ ++ (ts₃ ++ (ts₄ ++ lockTokens locks))) ++ us) ≠ "WITH" := by
    rw [List.append_assoc]
    exact hopens.key_ne (by decide)
  cases hwith with
  | none => exact Reads.wordElse hfront (Reads.skip (Reads.pure _ _) (hrest false []))
  | @some isRecursive ts ctes h =>
    have hnamed : Reads (commaSeparated (cte (.atDepth (d + 1)))) ts
        (ts₁ ++ (ts₂ ++ (ts₃ ++ (ts₄ ++ lockTokens locks))) ++ us) ctes := by
      rw [List.append_assoc]
      exact (h.many_named (hopens.key_ne (by decide)) (hopens.symbol_ne (by decide))).reads
    refine Reads.wordThen rfl ?_
    cases isRecursive with
    | true =>
      refine Reads.take (reads_word? rfl) (Reads.bind hnamed ?_)
      exact Reads.skip (Reads.pure (true, ctes) _) (hrest true ctes)
    | false =>
      refine Reads.skip (reads_word?_of_ne ?_) (Reads.bind hnamed ?_)
      · exact (List.append_assoc ts _ us).symm ▸ h.key_ne_recursive
      · exact Reads.skip (Reads.pure (false, ctes) _) (hrest false ctes)

end Parser
end SqlLayout.Sql
