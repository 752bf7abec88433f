import SqlLayout.Proofs.Reading.Clauses

/-!
Table phrases and joins. Joins are read from left to right, so the phrase that stands before a join is
all that was read before it.
-/

namespace SqlLayout.Sql
namespace Parser

variable {d : Nat} {x : Expr} {t : Table} {f : Factor} {ts ts₁ ts₂ us : List Token} {w : String}
  {ws : List String} {name : Option String} {g : Grammar}

/-- The words that may follow a whole table with its joins. -/
def afterJoins : List String :=
  ["WHERE", "GROUP", "HAVING"] ++ afterSelect

/-- The words of joins that may follow a table or another join. -/
def joinWords : List String :=
  ["JOIN", "INNER", "LEFT", "RIGHT", "FULL", "CROSS", "NATURAL"]

/-- The words that may follow a table in a join. -/
def afterTable : List String :=
  ["ON", "USING"] ++ joinWords ++ afterJoins

/-! ### Aliases -/

/-- The tokens of an alias without `AS`. -/
def aliasTokens : Option String → List Token
  | some w => [.word w]
  | none => []

/-- Whether a word may stand as an alias of a table. -/
def isAlias (w : String) : Bool :=
  !("AS" :: reservedForTable).contains (Lexer.keyOf (.word w))

/-- The alias that is read. -/
def aliasOf (name : Option String) : Option TableAlias :=
  name.map fun w => ⟨false, ⟨w, none⟩, []⟩

theorem key_ne_of_isAlias {k : String} (hw : isAlias w = true) (hk : k ∈ "AS" :: reservedForTable) :
    Lexer.keyOf (.word w) ≠ k := by
  rintro rfl
  simp only [isAlias, Bool.not_eq_true', List.contains_eq_mem, decide_eq_false_iff_not] at hw
  exact hw hk

theorem reads_tableAlias (hname : ∀ w ∈ name, isAlias w) (hus : Follows [",", ")", ";"] afterTable us) :
    Reads (tableAlias g) (aliasTokens name) us (aliasOf name) := by
  cases name with
  | none =>
    refine Reads.skip (reads_nextIsWord "AS" _) ?_
    exact Reads.skip (reads_alias_none hus (by decide) (by decide)) (Reads.pure none us)
  | some w =>
    have hw : Lexer.keyOf (.word w) ∉ "AS" :: reservedForTable := by
      simpa [isAlias] using hname w rfl
    have has : (Lexer.keyOf (.word w) == "AS") = false :=
      beq_eq_false_iff_ne.2 (key_ne_of_isAlias (hname w rfl) List.mem_cons_self)
    have hcolumns : Reads (aliasColumns g) [] us [] :=
      Reads.symbolElse (hus.symbol_ne (by decide)) (Reads.pure _ us)
    refine Reads.skip (reads_nextIsWord "AS" _) ?_
    change Reads (_ >>= _) [.word w] us _
    refine Reads.last (reads_alias_bare hw) ?_
    have hfront : (frontKey (aliasTokens (some w) ++ us) == "AS") = false := has
    rw [hfront]
    exact hcolumns.map

theorem alias_symbol_ne {ss ks : List String} {s : String} (hs : s ∉ ss) (hus : Follows ss ks us) :
    front (aliasTokens name ++ us) ≠ .symbol s := by
  cases name with
  | none => exact hus.symbol_ne hs
  | some w => exact fun heq => by cases heq

theorem alias_key_ne {k : String} (hname : ∀ w ∈ name, isAlias w) (hk : k ∈ "AS" :: reservedForTable)
    (hus : frontKey us ≠ k) : frontKey (aliasTokens name ++ us) ≠ k := by
  cases name with
  | none => exact hus
  | some w => exact key_ne_of_isAlias (hname w rfl) hk

/-! ### Phrases -/

theorem reads_path (h : front us ≠ .symbol ".") :
    Reads objectName (dotted w ws) us (bare (w :: ws)) := by
  have hmany : Many (symbol? ".") Parser.ident (dotted w ws) us (bare (w :: ws)) := by
    induction ws generalizing w with
    | nil => exact Many.one (reads_name w us) (reads_symbol?_of_ne h)
    | cons v ws ih => exact Many.cons (reads_name w _) (reads_symbol? "." _) ih
  exact hmany.reads

theorem reads_pivots (hus : Follows [",", ")", ";"] afterTable us) : Reads (pivots g f) [] us f := by
  have hpivot : frontKey us ∉ ["PIVOT", "UNPIVOT"] := hus.not_mem (by decide)
  refine (Turns.done (Reads.skip (reads_oneOf?_of_not_mem hpivot) ?_)).reads
  exact Reads.pure _ us

/-- Whether a word may start the name of a table. -/
def isTableWord (w : String) : Bool :=
  !(["LATERAL", "TABLE", "UNNEST", "JSON_TABLE", "OPENJSON", "XMLTABLE"].contains
    (Lexer.keyOf (.word w)))

theorem reads_namedTable (hname : ∀ w ∈ name, isAlias w) (hus : Follows [",", ")", ";"] afterTable us) :
    Reads (namedTable g) (dotted w ws ++ aliasTokens name) us
      (.table (bare (w :: ws)) (aliasOf name)) := by
  have hwith : frontKey (aliasTokens name ++ us) ≠ "WITH" :=
    alias_key_ne hname (by decide) (hus.key_ne (by decide))
  have hnoWith : (frontKey us == "WITH") = false := beq_eq_false_iff_ne.2 (hus.key_ne (by decide))
  have hsample : frontKey us ∉ ["TABLESAMPLE", "SAMPLE"] := hus.not_mem (by decide)
  refine Reads.bind (reads_path (alias_symbol_ne (by decide) hus)) ?_
  refine Reads.skip (reads_symbol?_of_ne (alias_symbol_ne (by decide) hus))
    (Reads.skip (Reads.pure none _) ?_)
  refine Reads.skip (reads_words?_of_ne hwith) (Reads.last (reads_tableAlias hname hus) ?_)
  refine Reads.skip (reads_nextIsWord "WITH" us) ?_
  rw [hnoWith]
  refine Reads.peekAt fun m _ _ => Reads.skip (Reads.pure _ us) ?_
  refine Reads.skip (Reads.skip (reads_oneOf?_of_not_mem hsample) (Reads.pure none us)) ?_
  exact reads_pivots hus

theorem reads_derived {q : Query} (isLateral : Bool) (h : ParsesQuery (d + 1) ts q)
    (hname : ∀ w ∈ name, isAlias w) (hus : Follows [",", ")", ";"] afterTable us) :
    Reads (derived (.atDepth (d + 1)) isLateral) (ts ++ .symbol ")" :: aliasTokens name) us
      (.derived isLateral q (aliasOf name)) :=
  Reads.bind (h _ rfl) (Reads.take (reads_symbol ")" _) (reads_tableAlias hname hus).map)

/-- A table phrase without joins. -/
inductive Phrased (d : Nat) : List Token → Factor → Prop
  | named {w : String} (ws : List String) {name : Option String} (hw : isTableWord w)
      (hname : ∀ v ∈ name, isAlias v) :
      Phrased d (dotted w ws ++ aliasTokens name) (.table (bare (w :: ws)) (aliasOf name))
  | subquery {ts : List Token} {q : Query} {name : Option String} (h : ParsesQuery (d + 1) ts q)
      (hname : ∀ v ∈ name, isAlias v) :
      Phrased d (.symbol "(" :: (ts ++ .symbol ")" :: aliasTokens name))
        (.derived false q (aliasOf name))
  | lateral {ts : List Token} {q : Query} {name : Option String} (h : ParsesQuery (d + 1) ts q)
      (hname : ∀ v ∈ name, isAlias v) :
      Phrased d (.word "LATERAL" :: .symbol "(" :: (ts ++ .symbol ")" :: aliasTokens name))
        (.derived true q (aliasOf name))

theorem reads_wordAndParen? {k : String} (h : frontKey us ≠ k) :
    Reads (wordAndParen? k) [] us false := by
  refine Reads.skip (reads_nextIsWord k us) (Reads.peekAt fun m _ _ => ?_)
  rw [beq_eq_false_iff_ne.2 h]
  exact Reads.pure false us

theorem Phrased.reads (h : Phrased d ts f) (hus : Follows [",", ")", ";"] afterTable us) :
    Reads (table (.atDepth (d + 1))) ts us f := by
  refine Reads.remaining fun n => Reads.last (a := (f, false)) ?_ (Reads.pure f us)
  cases h with
  | @named w ws name hw hname =>
    have hne (k : String)
        (hk : k ∈ ["LATERAL", "TABLE", "UNNEST", "JSON_TABLE", "OPENJSON", "XMLTABLE"]) :
        Lexer.keyOf (.word w) ≠ k := by
      rintro rfl
      rw [isTableWord, Bool.not_eq_true', List.contains_eq_mem, decide_eq_false_iff_not] at hw
      exact hw hk
    refine Reads.wordElse (hne "LATERAL" (by decide)) (Reads.wordElse (hne "TABLE" (by decide)) ?_)
    refine Reads.symbolElse (fun heq => by cases heq) (Reads.wordElse (hne "UNNEST" (by decide)) ?_)
    refine Reads.skip (reads_wordAndParen? (hne "JSON_TABLE" (by decide))) ?_
    refine Reads.skip (reads_wordAndParen? (hne "OPENJSON" (by decide))) ?_
    refine Reads.skip (reads_wordAndParen? (hne "XMLTABLE" (by decide))) ?_
    exact (reads_namedTable hname hus).map
  | subquery h hname =>
    refine Reads.wordElse (show Lexer.keyOf (.symbol "(") ≠ "LATERAL" by decide) ?_
    refine Reads.wordElse (show Lexer.keyOf (.symbol "(") ≠ "TABLE" by decide) (Reads.symbolThen ?_)
    exact Reads.last (reads_derived false h hname hus).attempt (reads_pivots hus).map
  | lateral h hname =>
    exact Reads.wordThen rfl (Reads.symbolThen (reads_derived true h hname hus).map)

/-! ### Joins -/

/-- The words of the joins that have a condition. -/
def kindWords : List (JoinKind × List String) :=
  [(.plain, ["JOIN"]), (.inner, ["INNER", "JOIN"]), (.left, ["LEFT", "JOIN"]),
    (.leftOuter, ["LEFT", "OUTER", "JOIN"]), (.right, ["RIGHT", "JOIN"]),
    (.rightOuter, ["RIGHT", "OUTER", "JOIN"]), (.full, ["FULL", "JOIN"])]

theorem reads_words (ks : List String) (h : (ks.map Token.word).map Lexer.keyOf = ks) :
    Reads (words ks) (ks.map .word) us () := by
  induction ks with
  | nil => exact Reads.pure () us
  | cons k ks ih =>
    simp only [List.map_cons, List.cons.injEq] at h
    exact Reads.take (reads_word h.1) (ih h.2)

theorem reads_joinKind? {kind : JoinKind} {ks : List String} (natural : Bool)
    (h : (kind, ks) ∈ kindWords) : Reads (joinKind? natural) (ks.map .word) us (some kind) := by
  have hsided (isLeft : Bool) : Reads (sidedJoin isLeft) [.word "JOIN"] us
      (if isLeft then .left else .right) :=
    Reads.last (reads_oneOf? (t := .word "JOIN") (by decide) (by decide)) (Reads.pure _ us)
  have houter (isLeft : Bool) : Reads (sidedJoin isLeft) [.word "OUTER", .word "JOIN"] us
      (if isLeft then .leftOuter else .rightOuter) :=
    Reads.take (reads_oneOf? (t := .word "OUTER") (by decide) (by decide))
      (Reads.last (reads_word rfl) (Reads.pure _ us))
  simp only [kindWords, List.mem_cons, Prod.mk.injEq, List.not_mem_nil, or_false] at h
  obtain ⟨rfl, rfl⟩ | ⟨rfl, rfl⟩ | ⟨rfl, rfl⟩ | ⟨rfl, rfl⟩ | ⟨rfl, rfl⟩ | ⟨rfl, rfl⟩ | ⟨rfl, rfl⟩ := h
  all_goals
    refine Reads.peek fun l _ hkey => ?_
    rw [hkey]
  · exact Reads.next fun _ _ => Reads.pure _ us
  · exact Reads.last (reads_words ["INNER", "JOIN"] rfl) (Reads.pure _ us)
  · exact Reads.next fun _ _ => (hsided true).map
  · exact Reads.next fun _ _ => (houter true).map
  · exact Reads.next fun _ _ => (hsided false).map
  · exact Reads.next fun _ _ => (houter false).map
  · refine Reads.next fun _ _ => ?_
    refine Reads.skip (reads_word?_of_ne (show Lexer.keyOf (.word "JOIN") ≠ "OUTER" by decide)) ?_
    exact Reads.last (reads_word rfl) (Reads.pure _ us)

theorem kindWords_front {kind : JoinKind} {ks : List String} (h : (kind, ks) ∈ kindWords) :
    ∃ k r, ks = k :: r ∧ Lexer.keyOf (.word k) ∈ ["JOIN", "INNER", "LEFT", "RIGHT", "FULL"] := by
  simp only [kindWords, List.mem_cons, Prod.mk.injEq, List.not_mem_nil, or_false] at h
  obtain ⟨-, rfl⟩ | ⟨-, rfl⟩ | ⟨-, rfl⟩ | ⟨-, rfl⟩ | ⟨-, rfl⟩ | ⟨-, rfl⟩ | ⟨-, rfl⟩ := h
  all_goals exact ⟨_, _, rfl, by decide⟩

/-- The name of a column. -/
inductive Names : List Token → ObjectName → Prop
  | intro (w : String) : Names [.word w] (bare [w])

/-- The condition of a join that is natural or not. -/
inductive Constrains (d : Nat) : Bool → List Token → Constraint → Prop
  | natural : Constrains d true [] .natural
  | on {ts : List Token} {x : Expr} (h : Item d ts x) : Constrains d false (.word "ON" :: ts) (.on x)
  | byColumns {ts : List Token} {columns : List ObjectName} (h : Listed Names ts columns) :
      Constrains d false (.word "USING" :: .symbol "(" :: (ts ++ [.symbol ")"])) (.byColumns columns)
  | none : Constrains d false [] .none

theorem Constrains.reads {natural : Bool} {c : Constraint} (h : Constrains d natural ts c)
    (hus : Follows [",", ")", ";"] (joinWords ++ afterJoins) us) :
    Reads (joinConstraint (.atDepth (d + 1)) natural) ts us c := by
  cases h with
  | natural => exact Reads.pure _ us
  | on h => exact Reads.wordThen rfl (h.reads (hus.stops (by decide) (by decide))).map
  | @byColumns ts columns h =>
    have hcolumns : Many (symbol? ",") objectName ts (.symbol ")" :: us) columns := by
      have hclose : Follows [",", ")"] [] (.symbol ")" :: us) := follows_close (by decide) us
      have hcomma : front (.symbol ")" :: us) ≠ .symbol "," := fun heq =>
        absurd (Token.symbol.inj heq) (by decide)
      refine h.many (by decide) (fun hcolumn hfollow => ?_) hclose hcomma
      obtain ⟨v⟩ := hcolumn
      exact reads_objectName (hfollow.symbol_ne (by decide))
    refine Reads.wordElse (show Lexer.keyOf (.word "USING") ≠ "ON" by decide) ?_
    refine Reads.wordThen rfl (Reads.symbolThen (Reads.bind hcolumns.reads ?_))
    exact Reads.last (reads_symbol ")" us) (Reads.pure _ us)
  | none =>
    refine Reads.wordElse (hus.key_ne (by decide)) ?_
    exact Reads.wordElse (hus.key_ne (by decide)) (Reads.pure _ us)

theorem Constrains.follows {natural : Bool} {c : Constraint} (h : Constrains d natural ts c)
    (hus : Follows [",", ")", ";"] (joinWords ++ afterJoins) us) :
    Follows [",", ")", ";"] afterTable (ts ++ us) := by
  cases h with
  | on h => exact (by decide : Lexer.keyOf (.word "ON") ∈ afterTable)
  | byColumns h => exact (by decide : Lexer.keyOf (.word "USING") ∈ afterTable)
  | _ => exact hus.mono (List.Subset.refl _) (by decide)

/-- The tokens of a table with joins after it. -/
inductive Sourced (d : Nat) : List Token → Table → Prop
  | factor {ts : List Token} {f : Factor} (h : Phrased d ts f) : Sourced d ts (.factor f)
  | join {ts ts₁ ts₂ : List Token} {t : Table} {f : Factor} {kind : JoinKind} {ks : List String}
      {natural : Bool}
      {c : Constraint} (h : Sourced d ts t) (hkind : (kind, ks) ∈ kindWords) (h' : Phrased d ts₁ f)
      (hc : Constrains d natural ts₂ c) :
      Sourced d (ts ++ ((if natural then [.word "NATURAL"] else []) ++ (ks.map .word ++ (ts₁ ++ ts₂))))
        (.joined t false kind f none c)
  | cross {ts ts₁ : List Token} {t : Table} {f : Factor} (h : Sourced d ts t) (h' : Phrased d ts₁ f) :
      Sourced d (ts ++ .word "CROSS" :: .word "JOIN" :: ts₁) (.joined t false .cross f none .none)

/-- One join after what was read before, and whether any join was read. -/
def joinStep (g : Grammar) (r : Table × Bool) : Parser (Table × Bool ⊕ Table × Bool) := do
  match ← join? g (table g) r.1 with
  | some t => return .inl (t, true)
  | none => return .inr r

/-- A join after its first words, with what stands before it. -/
def joinOf (g : Grammar) (natural : Bool) (left : Table) : Parser (Option Table) := do
  match ← joinKind? natural with
  | none => return none
  | some kind =>
    let right ← table g
    return some (.joined left false kind right none (← joinConstraint g natural))

theorem reads_join?_kind {kind : JoinKind} {ks : List String} {natural : Bool} {c : Constraint}
    (hkind : (kind, ks) ∈ kindWords) (h' : Phrased d ts₁ f) (hc : Constrains d natural ts₂ c)
    (hus : Follows [",", ")", ";"] (joinWords ++ afterJoins) us) :
    Reads (join? (.atDepth (d + 1)) (table (.atDepth (d + 1))) t)
      ((if natural then [.word "NATURAL"] else []) ++ (ks.map .word ++ (ts₁ ++ ts₂))) us
      (some (.joined t false kind f none c)) := by
  obtain ⟨k, r, rfl, hk⟩ := kindWords_front hkind
  have hother : ∀ k ∈ ["JOIN", "INNER", "LEFT", "RIGHT", "FULL"],
      k ∉ ["GLOBAL", "CROSS", "OUTER", "ASOF", "NATURAL"] := by decide
  have hfront : frontKey (((if natural then [.word "NATURAL"] else []) ++
      ((k :: r).map .word ++ (ts₁ ++ ts₂))) ++ us) ∉ ["GLOBAL", "CROSS", "OUTER", "ASOF"] := by
    cases natural with
    | true => exact (by decide : Lexer.keyOf (.word "NATURAL") ∉ ["GLOBAL", "CROSS", "OUTER", "ASOF"])
    | false =>
      exact fun hmem => hother _ hk ((by decide : ["GLOBAL", "CROSS", "OUTER", "ASOF"] ⊆
        ["GLOBAL", "CROSS", "OUTER", "ASOF", "NATURAL"]) hmem)
  simp only [List.mem_cons, List.not_mem_nil, or_false, not_or] at hfront
  obtain ⟨hglobal, hcross, houter, hasof⟩ := hfront
  have hafter : Reads (joinOf (.atDepth (d + 1)) natural t) ((k :: r).map .word ++ (ts₁ ++ ts₂)) us
      (some (.joined t false kind f none c)) :=
    Reads.bind (reads_joinKind? natural hkind)
      (Reads.bind (h'.reads (hc.follows hus)) (hc.reads hus).map)
  refine Reads.skip (reads_word?_of_ne hglobal) ?_
  refine Reads.wordElse hcross (Reads.wordElse houter (Reads.wordElse hasof ?_))
  cases natural with
  | true => exact Reads.take (reads_word? rfl) hafter
  | false =>
    refine Reads.skip (reads_word?_of_ne ?_) hafter
    exact fun heq => hother _ hk
      (heq ▸ (by decide : "NATURAL" ∈ ["GLOBAL", "CROSS", "OUTER", "ASOF", "NATURAL"]))

theorem reads_join?_cross (h' : Phrased d ts₁ f)
    (hus : Follows [",", ")", ";"] (joinWords ++ afterJoins) us) :
    Reads (join? (.atDepth (d + 1)) (table (.atDepth (d + 1))) t)
      (.word "CROSS" :: .word "JOIN" :: ts₁) us (some (.joined t false .cross f none .none)) := by
  refine Reads.skip (reads_word?_of_ne (show Lexer.keyOf (.word "CROSS") ≠ "GLOBAL" by decide)) ?_
  refine Reads.wordThen rfl (Reads.take (reads_oneOf? (t := .word "JOIN") (by decide) (by decide)) ?_)
  exact Reads.skip (Reads.pure _ _) (h'.reads (hus.mono (List.Subset.refl _) (by decide))).map

theorem reads_join?_none (hus : Follows [",", ")", ";"] afterJoins us) :
    Reads (join? g (table g) t) [] us none := by
  have hkind : Reads (joinKind? false) [] us none := by
    refine Reads.peek fun l _ hkey => ?_
    rw [hkey]
    have hne : frontKey us ∉ ["JOIN", "INNER", "LEFT", "RIGHT", "ANTI", "SEMI", "FULL", "OUTER",
      "STRAIGHT_JOIN"] := hus.not_mem (by decide)
    simp only [List.mem_cons, List.not_mem_nil, or_false, not_or] at hne
    simp only [List.nil_append]
    split
    all_goals first | exact Reads.pure _ us | simp_all
  refine Reads.skip (reads_word?_of_ne (hus.key_ne (by decide))) ?_
  refine Reads.wordElse (hus.key_ne (by decide)) (Reads.wordElse (hus.key_ne (by decide)) ?_)
  refine Reads.wordElse (hus.key_ne (by decide)) ?_
  exact Reads.skip (reads_word?_of_ne (hus.key_ne (by decide))) (Reads.skip hkind (Reads.pure none us))

/-- A join is one more turn after everything before it. -/
theorem Sourced.reads_before {tail : List Token} {last : Table} (h : Sourced d ts t)
    (htail : Follows [",", ")", ";"] (joinWords ++ afterJoins) (tail ++ us))
    (hturns : ∀ any, ∃ any', Turns (joinStep (.atDepth (d + 1))) (t, any) tail us (last, any')) :
    Reads (tableWithJoins (.atDepth (d + 1))) (ts ++ tail) us last := by
  induction h generalizing tail with
  | factor h =>
    obtain ⟨any, hturns⟩ := hturns false
    exact Reads.bind (h.reads (htail.mono (List.Subset.refl _) (by decide)))
      (Reads.last (a := (last, any)) hturns.reads (Reads.pure _ us))
  | @join ts ts₁ ts₂ t f kind ks natural c h hkind h' hc ih =>
    obtain ⟨k, rest, rfl, hk⟩ := kindWords_front hkind
    have hother : ["JOIN", "INNER", "LEFT", "RIGHT", "FULL"] ⊆ joinWords ++ afterJoins := by decide
    rw [List.append_assoc]
    obtain ⟨any', hturns⟩ := hturns true
    refine ih ?_ fun any => ⟨any', Turns.turn _ ?_ ?_ hturns⟩
    · cases natural with
      | true => exact (by decide : Lexer.keyOf (.word "NATURAL") ∈ joinWords ++ afterJoins)
      | false => exact hother hk
    · exact Reads.last (reads_join?_kind hkind h' hc htail) (Reads.pure _ _)
    · cases natural <;> simp
  | @cross ts ts₁ t f h h' ih =>
    rw [List.append_assoc]
    obtain ⟨any', hturns⟩ := hturns true
    refine ih (by decide : Lexer.keyOf (.word "CROSS") ∈ joinWords ++ afterJoins) fun any => ?_
    refine ⟨any', Turns.turn _ ?_ (List.cons_ne_nil _ _) hturns⟩
    exact Reads.last (reads_join?_cross h' htail) (Reads.pure _ _)

theorem Sourced.reads (h : Sourced d ts t) (hus : Follows [",", ")", ";"] afterJoins us) :
    Reads (tableWithJoins (.atDepth (d + 1))) ts us t := by
  have hdone (any : Bool) : Turns (joinStep (.atDepth (d + 1))) (t, any) [] us (t, any) :=
    Turns.done (Reads.skip (reads_join?_none hus) (Reads.pure _ us))
  have hfollows : Follows [",", ")", ";"] (joinWords ++ afterJoins) us :=
    hus.mono (List.Subset.refl _) (by decide)
  have hreads : Reads (tableWithJoins (.atDepth (d + 1))) (ts ++ []) us t :=
    h.reads_before hfollows fun any => ⟨any, hdone any⟩
  rwa [List.append_nil] at hreads

/-- The tokens of the tables of a select. -/
inductive Sources (d : Nat) : List Token → List Table → Prop
  | none : Sources d [] []
  | some {ts : List Token} {l : List Table} (h : Listed (Sourced d) ts l) :
      Sources d (.word "FROM" :: ts) l

theorem Sources.starts {l : List Table} (h : Sources d ts l) : Starts "FROM" ts := by
  cases h with
  | none => exact .inl rfl
  | some => exact .inr ⟨_, rfl⟩

theorem Sources.reads {β : Type} {f : List Table → Parser β} {b : β} {l : List Table}
    (h : Sources d ts l)
    (hus : Follows [")", ";"] afterJoins (ts₁ ++ us)) (hf : Reads (f l) ts₁ us b) :
    Reads (do
      let tables ← if ← word? "FROM" then tables (.atDepth (d + 1)) else pure []
      f tables) (ts ++ ts₁) us b := by
  cases h with
  | none => exact Reads.wordElse (hus.key_ne (by decide)) (Reads.skip (Reads.pure _ _) hf)
  | some h =>
    have htables : Many (symbol? ",") (tableWithJoins (.atDepth (d + 1))) _ (ts₁ ++ us) l :=
      h.many (by decide : "," ∈ [",", ")", ";"]) (fun hjoined hus => hjoined.reads hus)
        (hus.mono (by decide) (List.Subset.refl _)) (hus.symbol_ne (by decide))
    exact Reads.wordThen rfl (Reads.bind htables.reads hf)

end Parser
end SqlLayout.Sql
