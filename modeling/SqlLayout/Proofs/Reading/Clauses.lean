import SqlLayout.Proofs.Reading.Expressions

/-!
The clauses of queries. Each clause is read up to the word or the symbol that starts what may come after
it.
-/

namespace SqlLayout.Sql
namespace Parser

variable {α : Type} {d l r : Nat} {x : Expr} {ts ts₁ ts₂ us : List Token} {w : String} {paren : Bool}

/-! ### What follows -/

/-- Tokens of which the first one is one of the symbols or of the keywords, or the end of the text. -/
def Follows (ss ks : List String) (us : List Token) : Prop :=
  match front us with
  | .eof => True
  | .symbol s => s ∈ ss
  | .word w => Lexer.keyOf (.word w) ∈ ks
  | _ => False

section

variable {ss ss' ks ks' : List String}

theorem Follows.key_ne {k : String} (h : Follows ss ks us) (hk : k ∉ "" :: ks) : frontKey us ≠ k := by
  rintro rfl
  unfold Follows at h
  unfold frontKey at hk
  cases hfront : front us with
  | word w =>
    rw [hfront] at h hk
    exact hk (List.mem_cons_of_mem _ h)
  | _ =>
    rw [hfront] at hk
    exact hk List.mem_cons_self

theorem Follows.not_mem (h : Follows ss ks us) (hks : ∀ k ∈ ks', k ∉ "" :: ks) : frontKey us ∉ ks' :=
  fun hmem => h.key_ne (hks _ hmem) rfl

theorem Follows.symbol_ne {s : String} (h : Follows ss ks us) (hs : s ∉ ss) : front us ≠ .symbol s := by
  intro heq
  rw [Follows, heq] at h
  exact hs h

theorem Follows.mono (h : Follows ss ks us) (hss : ss ⊆ ss') (hks : ks ⊆ ks') : Follows ss' ks' us := by
  unfold Follows at h ⊢
  cases hfront : front us with
  | symbol s =>
    rw [hfront] at h
    exact hss h
  | word w =>
    rw [hfront] at h
    exact hks h
  | eof => trivial
  | _ =>
    rw [hfront] at h
    exact h

theorem Follows.ends (h : Follows ss ks us) (hss : ss ⊆ endSymbols) (hks : ks ⊆ enders) : Ends us := by
  unfold Follows at h
  unfold Ends Parser.ends
  cases hfront : front us with
  | symbol s =>
    rw [hfront] at h
    exact List.contains_iff_mem.2 (hss h)
  | word w =>
    rw [hfront] at h
    exact List.contains_iff_mem.2 (hks h)
  | eof => rfl
  | _ =>
    rw [hfront] at h
    exact h.elim

/-- The words that may follow an expression and start no operator. -/
def closers : List String :=
  ["AS", "WHEN", "THEN", "ELSE", "END", "FROM", "WHERE", "GROUP", "HAVING", "ORDER", "LIMIT", "OFFSET",
    "ASC", "DESC", "NULLS", "UNION", "INTERSECT", "EXCEPT", "JOIN", "INNER", "LEFT", "RIGHT", "FULL",
    "CROSS", "NATURAL", "FOR"]

theorem wordStrength_closers {k : String} (hk : k ∈ closers) (k' k'' : String) :
    wordStrength .anywhere k k' k'' = 0 := by
  have hplain : ∀ k ∈ closers, predicateWords.contains k = false ∧
      k ∉ ["COLLATE", "OR", "AND", "XOR", "AT", "NOT", "NOTNULL", "IS", "OVERLAPS", "OPERATOR",
        "DIV"] := by
    decide
  obtain ⟨hpredicate, hne⟩ := hplain k hk
  simp only [List.mem_cons, List.not_mem_nil, or_false, not_or] at hne
  unfold wordStrength
  rw [if_neg (by rw [hpredicate]; decide)]
  split <;> simp_all

theorem Follows.stops (h : Follows ss ks us) (hss : ss ⊆ [")", ",", ";"]) (hks : ks ⊆ closers) :
    Stops us := by
  refine ⟨h.ends (fun s hs => ?_) (fun k hk => ?_), ?_⟩
  · exact (by decide : [")", ",", ";"] ⊆ endSymbols) (hss hs)
  · exact (by decide : closers ⊆ enders) (hks hk)
  · unfold Follows at h
    unfold strengthOf
    cases hfront : front us with
    | symbol s =>
      rw [hfront] at h
      exact (by decide : ∀ s ∈ [")", ",", ";"], symbolStrength s = 0) s (hss h)
    | word w =>
      rw [hfront] at h
      simp only [frontKey, hfront]
      exact wordStrength_closers (hks h) _ _
    | operator o =>
      rw [hfront] at h
      exact h.elim
    | _ => rfl

/-- Tokens that are left out or start with a word. -/
def Starts (w : String) (ts : List Token) : Prop :=
  ts = [] ∨ ∃ r, ts = .word w :: r

theorem Follows.starts (h : Starts w ts) (hw : Lexer.keyOf (.word w) ∈ ks') (hus : Follows ss ks us)
    (hks : ks ⊆ ks') : Follows ss ks' (ts ++ us) := by
  obtain rfl | ⟨r, rfl⟩ := h
  · exact hus.mono (List.Subset.refl _) hks
  · exact hw

theorem Starts.key_ne {k : String} (h : Starts w ts) (hw : Lexer.keyOf (.word w) ≠ k)
    (hus : frontKey us ≠ k) : frontKey (ts ++ us) ≠ k := by
  obtain rfl | ⟨r, rfl⟩ := h
  · exact hus
  · exact hw

end

theorem ParsesOption.starts {o : Option Expr} (h : ParsesOption d w ts o) : Starts w ts := by
  cases h with
  | none => exact .inl rfl
  | some h hl => exact .inr ⟨_, rfl⟩

/-! ### Stars -/

/-- What follows one name of a path that may end with a star. -/
def starStep (acc : List Ident) : Parser (List Ident ⊕ Option (List Ident)) := do
  if ← symbol? "." then
    let t ← next
    match t.token with
    | .word s => return .inl (⟨s, none⟩ :: acc)
    | .delimited s => return .inl (⟨s, some '"'⟩ :: acc)
    | .quoted .plain s => return .inl (⟨s, some '\x27'⟩ :: acc)
    | .symbol "*" => return .inr (some acc.reverse)
    | _ => expectedBut "an identifier or a '*' after '.'" t
  else return .inr none

theorem turns_points {ws : List String} {acc : List Ident} {o : Option (List Ident)}
    (h : Turns starStep ((bare ws).reverse ++ acc) ts us o) :
    Turns starStep acc (points ws ++ ts) us o := by
  induction ws generalizing acc with
  | nil => exact h
  | cons w ws ih =>
    have hrest : Turns starStep (⟨w, none⟩ :: acc) (points ws ++ ts) us o := ih (by simpa [bare] using h)
    refine Turns.turn [.symbol ".", .word w] (Reads.symbolThen (Reads.next fun m hm => ?_))
      (List.cons_ne_nil _ _) hrest
    rw [hm.token]
    exact Reads.pure _ _

theorem reads_starPath {ws : List String} (h : front us ≠ .symbol ".") :
    Reads starPath (dotted w ws) us none := by
  have hdone : Turns starStep ((bare ws).reverse ++ []) [] us none :=
    Turns.done (Reads.symbolElse h (Reads.pure _ us))
  have hturns := turns_points hdone
  rw [List.append_nil] at hturns
  exact Reads.take (reads_name w _) (Reads.last hturns.reads (Reads.pure _ us))

theorem reads_starPath_star {ws : List String} :
    Reads starPath (dotted w ws ++ [.symbol ".", .symbol "*"]) us (some (bare (w :: ws))) := by
  have hdone : Turns starStep ((bare ws).reverse ++ []) [.symbol ".", .symbol "*"] us
      (some (bare ws)) := by
    refine Turns.done (Reads.symbolThen (Reads.next fun m hm => ?_))
    rw [hm.token, List.append_nil, List.reverse_reverse]
    exact Reads.pure _ us
  exact Reads.take (reads_name w _) (Reads.last (turns_points hdone).reads (Reads.pure _ us))

/-- Before what starts like an expression there is no star. -/
theorem starOr_run {p : Parser Expr} {ls : List Lexeme} (hlead : Leads paren ts) (hls : Spells ls ts) :
    starOr p .anywhere ls = p .anywhere ls := by
  have hpeek : peek .anywhere ls = .ok (ls.headD .eof) ls := rfl
  have hpeekAt : peekAt 1 .anywhere ls = .ok (ls.getD 1 .eof) ls := rfl
  have hsecond : (ls.getD 1 .eof).token = front (ts.drop 1) := by
    rw [List.getD_eq_getElem?_getD, ← (hls.drop 1).front_token, List.headD_eq_head?_getD,
      List.head?_drop]
  refine (bind_run hpeek).trans ?_
  cases hlead with
  | path ws hw hpoint hon =>
    rename_i v more
    have htoken : (ls.headD .eof).token = .word v := hls.front_token
    simp only [htoken]
    refine (bind_run hpeekAt).trans ?_
    rw [hsecond]
    cases ws with
    | nil =>
      have hfront : (front ((dotted v [] ++ more).drop 1) == .symbol ".") = false :=
        beq_eq_false_iff_ne.2 hpoint
      rw [hfront]
      rfl
    | cons u ws =>
      obtain ⟨ls₁, ls₂, rfl, hpath, hmore⟩ := hls.split
      have hread := reads_starPath hpoint ls₁ ls₂ hpath hmore
      refine (bind_run (rfl : (get : Parser _) .anywhere _ = .ok (ls₁ ++ ls₂) (ls₁ ++ ls₂))).trans ?_
      exact bind_run hread
  | mark ht hpoint =>
    rename_i t more
    have htoken : (ls.headD .eof).token = t := hls.front_token
    have hstar : (t == .symbol "*") = false := by
      rw [beq_eq_false_iff_ne]
      rintro rfl
      cases paren <;> exact absurd ht (by decide)
    have hsecond' : (front ((t :: more).drop 1) == .symbol ".") = false := beq_eq_false_iff_ne.2 hpoint
    rw [htoken]
    split
    all_goals
      refine (bind_run hpeekAt).trans ?_
      simp only [hsecond, hsecond', hstar, Bool.true_and, Bool.false_and, Bool.false_eq_true, if_false]

theorem reads_starOr {p : Parser Expr} (hlead : Leads paren (ts ++ us)) (hp : Reads p ts us x) :
    Reads (starOr p) ts us x := by
  intro ls rest hls hrest
  rw [starOr_run hlead (hls.append hrest)]
  exact hp ls rest hls hrest

theorem reads_star {p : Parser Expr} : Reads (starOr p) [.symbol "*"] us .star := by
  refine Reads.peek fun m hm _ => ?_
  change m.token = .symbol "*" at hm
  rw [hm]
  exact Reads.peekAt fun _ _ _ => Reads.next fun _ _ => Reads.pure _ us

theorem reads_pathStar {p : Parser Expr} {ws : List String} :
    Reads (starOr p) (dotted w ws ++ [.symbol ".", .symbol "*"]) us (.pathStar (bare (w :: ws))) := by
  refine Reads.peek fun m hm _ => Reads.peekAt fun m' hm' _ => ?_
  have htoken : m.token = .word w := hm
  have hpoint : m'.token = .symbol "." := by
    rw [hm']
    cases ws <;> rfl
  rw [htoken, hpoint]
  exact Reads.get fun start => Reads.last reads_starPath_star (Reads.pure _ us)

/-! ### Aliases and projections -/

/-- The tokens of a name after `AS`. -/
def asTokens : Option String → List Token
  | some name => [.word "AS", .word name]
  | none => []

/-- The words that may follow a projection. A word that may name a column is none of them. -/
def afterTargets : List String :=
  ["FROM", "WHERE", "GROUP", "HAVING", "UNION", "INTERSECT", "EXCEPT", "ORDER", "LIMIT", "OFFSET"]

theorem reads_alias_none {ss ks reserved : List String} (h : Follows ss ks us) (hks : ks ⊆ reserved)
    (has : "AS" ∉ "" :: ks) : Reads (alias? reserved) [] us none := by
  refine Reads.skip (reads_word?_of_ne (h.key_ne has)) (Reads.peek fun m hm hkey => ?_)
  change m.token = front us at hm
  change m.key = frontKey us at hkey
  unfold Follows at h
  rw [hm]
  cases hfront : front us with
  | word w =>
    rw [hfront] at h
    have hmem : reserved.contains m.key = true := by
      rw [hkey, frontKey, hfront]
      exact List.contains_iff_mem.2 (hks h)
    simp only [hmem, Bool.not_true, Bool.or_false, Bool.and_false]
    exact Reads.pure none us
  | symbol => exact Reads.pure none us
  | eof => exact Reads.pure none us
  | _ =>
    rw [hfront] at h
    exact h.elim

theorem reads_alias_as (w : String) (reserved : List String) (us : List Token) :
    Reads (alias? reserved) [.word "AS", .word w] us (some ⟨w, none⟩) := by
  refine Reads.take (reads_word? rfl) (Reads.peek fun m hm _ => ?_)
  change m.token = .word w at hm
  rw [hm]
  exact Reads.next fun _ _ => Reads.pure _ us

theorem reads_alias_bare {reserved : List String} (hw : Lexer.keyOf (.word w) ∉ "AS" :: reserved) :
    Reads (alias? reserved) [.word w] us (some ⟨w, none⟩) := by
  rw [List.mem_cons, not_or] at hw
  refine Reads.skip (reads_word?_of_ne hw.1) (Reads.peek fun m hm hkey => ?_)
  change m.token = .word w at hm
  change m.key = Lexer.keyOf (.word w) at hkey
  have hfree : reserved.contains m.key = false := by
    rw [hkey, List.contains_eq_mem, decide_eq_false_iff_not]
    exact hw.2
  rw [hm]
  simp only [hfree]
  exact Reads.next fun _ _ => Reads.pure _ us

/-- An expression that is neither a star nor the word that starts the tables. -/
def IsTarget : Expr → Prop
  | .star => False
  | .pathStar _ => False
  | .ident ⟨name, none⟩ => Text.eqIgnoreCase name "from" = false
  | _ => True

theorem reads_target {g : Grammar} {name : Option String} (hx : IsTarget x)
    (hread : Reads g.anyExpr ts (asTokens name ++ us) x)
    (hlead : Leads paren (ts ++ (asTokens name ++ us)))
    (hus : Follows [",", ")", ";"] afterTargets us) :
    Reads (target g) (ts ++ asTokens name) us ⟨x, name.map fun n => ⟨n, none⟩⟩ := by
  have halias : Reads (alias? reservedForColumn) (asTokens name) us (name.map fun n => ⟨n, none⟩) := by
    cases name with
    | none => exact reads_alias_none hus (by decide) (by decide)
    | some n => exact reads_alias_as n _ us
  refine Reads.bind (reads_starOr hlead hread) ?_
  split
  · cases hx
  · cases hx
  · rename_i n
    rw [if_neg (by simpa [IsTarget] using hx)]
    exact halias.map
  · exact halias.map

/-- The star of a whole row, or of the rows of a table. -/
theorem reads_target_star {g : Grammar} : Reads (target g) [.symbol "*"] us ⟨.star, none⟩ :=
  Reads.last reads_star (Reads.pure _ us)

theorem reads_target_pathStar {g : Grammar} {ws : List String} :
    Reads (target g) (dotted w ws ++ [.symbol ".", .symbol "*"]) us ⟨.pathStar (bare (w :: ws)), none⟩ :=
  Reads.last reads_pathStar (Reads.pure _ us)

/-! ### Lists -/

/-- Phrases of a kind with commas between them. -/
inductive Listed (P : List Token → α → Prop) : List Token → List α → Prop
  | one {ts : List Token} {a : α} (h : P ts a) : Listed P ts [a]
  | cons {ts ts' : List Token} {a : α} {as : List α} (h : P ts a) (hrest : Listed P ts' as) :
    Listed P (ts ++ .symbol "," :: ts') (a :: as)

theorem Listed.many {P : List Token → α → Prop} {p : Parser α} {as : List α} {ss ks : List String}
    (h : Listed P ts as) (hcomma : "," ∈ ss)
    (hp : ∀ {ts us a}, P ts a → Follows ss ks us → Reads p ts us a) (hus : Follows ss ks us)
    (hlast : front us ≠ .symbol ",") : Many (symbol? ",") p ts us as := by
  induction h with
  | one h => exact Many.one (hp h hus) (reads_symbol?_of_ne hlast)
  | cons h hrest ih => exact Many.cons (hp h hcomma) (reads_symbol? "," _) ih

/-- An expression in a place where every operator may stand in it. -/
structure Item (d : Nat) (ts : List Token) (x : Expr) : Prop where
  parses : ∃ l r, 0 < l ∧ Parses d l r ts x
  leads : ∃ paren, Leads paren ts

theorem Item.reads (h : Item d ts x) (hus : Stops us) :
    Reads (Grammar.atDepth (d + 1)).anyExpr ts us x := by
  obtain ⟨l, r, hl, hparses⟩ := h.parses
  exact hparses.reads_all hl hus

theorem Item.key_ne {k : String} (h : Item d ts x) (hk : k ∈ nonStarters) : frontKey (ts ++ us) ≠ k := by
  obtain ⟨paren, hlead⟩ := h.leads
  exact hlead.key_ne hk

theorem Item.option (h : Item d ts x) (w : String) : ParsesOption d w (.word w :: ts) (some x) := by
  obtain ⟨l, r, hl, hparses⟩ := h.parses
  exact .some hparses hl

theorem Listed.exprs {xs : List Expr} {ss ks : List String} (h : Listed (Item d) ts xs)
    (hss : ss ⊆ [")", ";"]) (hks : ks ⊆ closers) (hus : Follows ss ks us) :
    Reads (Grammar.atDepth (d + 1)).exprs ts us xs := by
  have hcommas : "," :: ss ⊆ [")", ",", ";"] := by
    refine List.cons_subset.2 ⟨by decide, fun s hs => ?_⟩
    exact (by decide : [")", ";"] ⊆ [")", ",", ";"]) (hss hs)
  refine (h.many List.mem_cons_self (fun hitem hus => hitem.reads (hus.stops hcommas hks))
    (hus.mono (List.subset_cons_self _ _) (List.Subset.refl _)) (hus.symbol_ne ?_)).reads
  exact fun hmem => (by decide : "," ∉ [")", ";"]) (hss hmem)

theorem follows_close {ss ks : List String} (h : ")" ∈ ss) (us : List Token) :
    Follows ss ks (.symbol ")" :: us) := h

theorem close_ne_comma (us : List Token) : front (.symbol ")" :: us) ≠ .symbol "," :=
  fun heq => absurd (Token.symbol.inj heq) (by decide)

theorem Listed.exprs_close {xs : List Expr} (h : Listed (Item d) ts xs) : ParsesList (d + 1) ts xs := by
  intro us
  have hclose : Follows [")", ";"] [] (.symbol ")" :: us) := follows_close (by decide) us
  exact h.exprs (List.Subset.refl _) (List.nil_subset _) hclose

/-! ### Sort lists -/

/-- The tokens of a direction. -/
def directionTokens : Option Bool → List Token
  | none => []
  | some true => [.word "ASC"]
  | some false => [.word "DESC"]

/-- The tokens of the place of nulls. -/
def nullsTokens : Option Bool → List Token
  | none => []
  | some true => [.word "NULLS", .word "FIRST"]
  | some false => [.word "NULLS", .word "LAST"]

/-- The words that may follow a sort list. -/
def afterOrder : List String :=
  ["LIMIT", "OFFSET", "FOR"]

theorem reads_sortOptions {ascending nullsFirst : Option Bool}
    (hus : Follows [",", ")", ";"] afterOrder us) :
    Reads sortOptions (directionTokens ascending ++ nullsTokens nullsFirst) us
      ⟨ascending, nullsFirst⟩ := by
  have hnulls (ascending : Option Bool) : Reads (do
      if ← words? ["NULLS", "FIRST"] then return ⟨ascending, some true⟩
      else if ← words? ["NULLS", "LAST"] then return ⟨ascending, some false⟩
      else return ⟨ascending, none⟩) (nullsTokens nullsFirst) us
        (⟨ascending, nullsFirst⟩ : SortOptions) := by
    match nullsFirst with
    | none =>
      refine Reads.wordsElse (hus.key_ne (by decide)) ?_
      exact Reads.wordsElse (hus.key_ne (by decide)) (Reads.pure _ us)
    | some true => exact Reads.wordsThen [.word "NULLS", .word "FIRST"] rfl (Reads.pure _ us)
    | some false =>
      have hlast : Lexer.keyOf (.word "LAST") ≠ "FIRST" := by decide
      refine Reads.skip (reads_words?_of_ne_second hlast) ?_
      exact Reads.wordsThen [.word "NULLS", .word "LAST"] rfl (Reads.pure _ us)
  match ascending with
  | none =>
    have hnone : frontKey (nullsTokens nullsFirst ++ us) ∉ ["ASC", "DESC"] := by
      have hword : Lexer.keyOf (.word "NULLS") ∉ ["ASC", "DESC"] := by decide
      match nullsFirst with
      | none => exact hus.not_mem (by decide)
      | some true => exact hword
      | some false => exact hword
    exact Reads.skip (reads_oneOf?_of_not_mem hnone) (Reads.skip (Reads.pure _ _) (hnulls _))
  | some true =>
    exact Reads.take (reads_oneOf? (t := .word "ASC") (by decide) (by decide))
      (Reads.skip (Reads.pure _ _) (hnulls _))
  | some false =>
    exact Reads.take (reads_oneOf? (t := .word "DESC") (by decide) (by decide))
      (Reads.skip (Reads.pure _ _) (hnulls _))

/-- An item of a sort list. -/
inductive SortsBy (d : Nat) : List Token → SortItem → Prop
  | intro {ts : List Token} {x : Expr} (ascending nullsFirst : Option Bool) (h : Item d ts x) :
    SortsBy d (ts ++ (directionTokens ascending ++ nullsTokens nullsFirst)) ⟨x, ⟨ascending, nullsFirst⟩⟩

theorem SortsBy.reads {i : SortItem} (h : SortsBy d ts i) (hus : Follows [",", ")", ";"] afterOrder us) :
    Reads (sortItem (.atDepth (d + 1))) ts us i := by
  obtain ⟨ascending, nullsFirst, h⟩ := h
  refine Reads.bind (h.reads ?_) (reads_sortOptions hus).map
  have hstops : Stops us := hus.stops (by decide) (by decide)
  match ascending, nullsFirst with
  | none, none => exact hstops
  | none, some true => exact ⟨rfl, rfl⟩
  | none, some false => exact ⟨rfl, rfl⟩
  | some true, _ => exact ⟨rfl, rfl⟩
  | some false, _ => exact ⟨rfl, rfl⟩

/-- The tokens of a sort list after its keywords. -/
inductive Orders (d : Nat) : List Token → List SortItem → Prop
  | none : Orders d [] []
  | some {ts : List Token} {items : List SortItem} (h : Listed (SortsBy d) ts items) :
    Orders d (.word "ORDER" :: .word "BY" :: ts) items

theorem Orders.starts {items : List SortItem} (h : Orders d ts items) : Starts "ORDER" ts := by
  cases h with
  | none => exact .inl rfl
  | some h => exact .inr ⟨_, rfl⟩

theorem Orders.reads {items : List SortItem} (h : Orders d ts items)
    (hus : Follows [")", ";"] afterOrder us) : Reads (orderBy (.atDepth (d + 1))) ts us items := by
  cases h with
  | none => exact Reads.wordsElse (hus.key_ne (by decide)) (Reads.pure _ us)
  | some h =>
    refine Reads.wordsThen [.word "ORDER", .word "BY"] rfl ?_
    exact (h.many (by decide) (fun hitem hus => hitem.reads hus)
      (hus.mono (by decide) (List.Subset.refl _)) (hus.symbol_ne (by decide))).reads

/-! ### Limits -/

/-- The words that may follow a limit. -/
def afterLimit : List String :=
  ["FOR"]

theorem reads_offset {o : Option Expr} (h : ParsesOption d "OFFSET" ts o)
    (hus : Follows [")", ";"] afterLimit us) :
    Reads (afterWord "OFFSET" (offsetCount (.atDepth (d + 1)))) ts us (o.map (·, "")) := by
  cases h with
  | none => exact reads_afterWord_none (hus.key_ne (by decide))
  | some h hl =>
    refine reads_afterWord rfl (Reads.last (h.reads_all hl (hus.stops (by decide) (by decide))) ?_)
    exact Reads.skip (reads_oneOf?_of_not_mem (hus.not_mem (by decide))) (Reads.pure _ us)

/-- The tokens of a limit. -/
inductive Limits (d : Nat) : List Token → Option Expr → Prop
  | none : Limits d [] none
  | some {ts : List Token} {x : Expr} (h : Item d ts x) : Limits d (.word "LIMIT" :: ts) (some x)

theorem Limits.starts {o : Option Expr} (h : Limits d ts o) : Starts "LIMIT" ts := by
  cases h with
  | none => exact .inl rfl
  | some h => exact .inr ⟨_, rfl⟩

theorem reads_limits {limit offset : Option Expr} (hlimit : Limits d ts₁ limit)
    (hoffset : ParsesOption d "OFFSET" ts₂ offset) (hus : Follows [")", ";"] afterLimit us) :
    Reads (limits (.atDepth (d + 1))) (ts₁ ++ ts₂) us (limit, offset.map (·, "")) := by
  have hrest : Follows [")", ";"] ["OFFSET", "FOR"] (ts₂ ++ us) :=
    hus.starts hoffset.starts (by decide) (by decide)
  cases hlimit with
  | none =>
    refine Reads.last (reads_offset hoffset hus) ?_
    exact Reads.wordElse (hus.key_ne (by decide)) (Reads.pure _ us)
  | some h =>
    have hcount : Reads (limitCount (.atDepth (d + 1))) _ (ts₂ ++ us) _ :=
      Reads.wordElse (h.key_ne (by decide)) (h.reads (hrest.stops (by decide) (by decide))).map
    refine Reads.skip (reads_afterWord_none (show Lexer.keyOf (.word "LIMIT") ≠ "OFFSET" by decide)) ?_
    exact Reads.wordThen rfl
      (Reads.bind hcount (Reads.last (reads_offset hoffset hus) (Reads.pure _ us)))

/-! ### Locks -/

/-- The tokens of what a lock does when a row is locked already. -/
def waitingTokens : Option Waiting → List Token
  | none => []
  | some .noWait => [.word "NOWAIT"]
  | some .skipLocked => [.word "SKIP", .word "LOCKED"]

/-- The tokens of the table of a lock. -/
def ofTokens : Option String → List Token
  | none => []
  | some w => [.word "OF", .word w]

/-- The tokens of locks, each of them with its strength, its table and its waiting. -/
def lockTokens : List (Bool × Option String × Option Waiting) → List Token
  | [] => []
  | (share, table, waiting) :: r =>
    .word "FOR" :: .word (if share then "SHARE" else "UPDATE") ::
      (ofTokens table ++ (waitingTokens waiting ++ lockTokens r))

/-- The lock that is read. -/
def lockOf (l : Bool × Option String × Option Waiting) : Lock :=
  ⟨l.1, l.2.1.map fun w => bare [w], l.2.2⟩

theorem reads_waiting {waiting : Option Waiting} (hus : Follows [")", ";"] ["FOR"] us)
    {f : Option Waiting → Lock} :
    Reads (do
      if ← word? "NOWAIT" then return f (some .noWait)
      else if ← words? ["SKIP", "LOCKED"] then return f (some .skipLocked)
      else return f none) (waitingTokens waiting) us (f waiting) := by
  match waiting with
  | none =>
    refine Reads.wordElse (hus.key_ne (by decide)) ?_
    exact Reads.wordsElse (hus.key_ne (by decide)) (Reads.pure _ us)
  | some .noWait => exact Reads.wordThen rfl (Reads.pure _ us)
  | some .skipLocked =>
    refine Reads.wordElse (show Lexer.keyOf (.word "SKIP") ≠ "NOWAIT" by decide) ?_
    exact Reads.wordsThen [.word "SKIP", .word "LOCKED"] rfl (Reads.pure _ us)

theorem reads_lock {share : Bool} {table : Option String} {waiting : Option Waiting}
    (hus : Follows [")", ";"] ["FOR"] us) :
    Reads lock (.word (if share then "SHARE" else "UPDATE") ::
      (ofTokens table ++ waitingTokens waiting)) us (lockOf (share, table, waiting)) := by
  have hstrength : Reads (oneOf ["UPDATE", "SHARE"]) [.word (if share then "SHARE" else "UPDATE")]
      ((ofTokens table ++ waitingTokens waiting) ++ us) (if share then "SHARE" else "UPDATE") := by
    cases share with
    | true =>
      exact Reads.last (reads_oneOf? (t := .word "SHARE") (by decide) (by decide)) (Reads.pure _ _)
    | false =>
      exact Reads.last (reads_oneOf? (t := .word "UPDATE") (by decide) (by decide)) (Reads.pure _ _)
  have hwaiting : Follows [")", ";"] ["NOWAIT", "SKIP", "FOR"] (waitingTokens waiting ++ us) := by
    match waiting with
    | none => exact hus.mono (List.Subset.refl _) (by decide)
    | some .noWait => exact (by decide : Lexer.keyOf (.word "NOWAIT") ∈ ["NOWAIT", "SKIP", "FOR"])
    | some .skipLocked => exact (by decide : Lexer.keyOf (.word "SKIP") ∈ ["NOWAIT", "SKIP", "FOR"])
  have hof : Reads (afterWord "OF" objectName) (ofTokens table) (waitingTokens waiting ++ us)
      (table.map fun w => bare [w]) := by
    cases table with
    | none => exact reads_afterWord_none (hwaiting.key_ne (by decide))
    | some w => exact reads_afterWord rfl (reads_objectName (hwaiting.symbol_ne (by decide)))
  have hshare : ((if share then "SHARE" else "UPDATE") == "SHARE") = share := by cases share <;> rfl
  refine Reads.take hstrength (Reads.bind hof ?_)
  rw [hshare]
  exact reads_waiting (f := fun w => ⟨share, table.map fun w => bare [w], w⟩) hus

theorem follows_locks (ls : List (Bool × Option String × Option Waiting))
    (hus : Follows [")", ";"] [] us) :
    Follows [")", ";"] ["FOR"] (lockTokens ls ++ us) := by
  cases ls with
  | nil => exact hus.mono (List.Subset.refl _) (by decide)
  | cons l r => exact (by decide : Lexer.keyOf (.word "FOR") ∈ ["FOR"])

/-- One clause after `FOR`, or the end of these clauses. -/
def forStep (acc : List Lock) : Parser (List Lock ⊕ (List Lock × Option String)) := do
  if ← word? "FOR" then
    match ← oneOf? ["XML", "JSON", "BROWSE"] with
    | some "XML" => return .inr (acc.reverse, some (← forXml))
    | some "JSON" => return .inr (acc.reverse, some (← forJson))
    | some _ => return .inr (acc.reverse, some "FOR BROWSE")
    | none => return .inl ((← lock) :: acc)
  else return .inr (acc.reverse, none)

theorem turns_locks (ls : List (Bool × Option String × Option Waiting)) (acc : List Lock)
    (hus : Follows [")", ";"] [] us) :
    Turns forStep acc (lockTokens ls) us (acc.reverse ++ ls.map lockOf, none) := by
  induction ls generalizing acc with
  | nil =>
    refine Turns.done (Reads.wordElse (hus.key_ne (by decide)) ?_)
    rw [List.map_nil, List.append_nil]
    exact Reads.pure _ us
  | cons l r ih =>
    obtain ⟨share, table, waiting⟩ := l
    have hplain : Lexer.keyOf (.word (if share then "SHARE" else "UPDATE")) ∉
        ["XML", "JSON", "BROWSE"] := by
      cases share <;> decide
    have hnext := ih (lockOf (share, table, waiting) :: acc)
    rw [List.reverse_cons, List.append_assoc] at hnext
    have hlock : Reads (forStep acc) (.word "FOR" :: .word (if share then "SHARE" else "UPDATE") ::
        (ofTokens table ++ waitingTokens waiting)) (lockTokens r ++ us)
        (.inl (lockOf (share, table, waiting) :: acc)) :=
      Reads.wordThen rfl (Reads.skip (reads_oneOf?_of_not_mem hplain)
        (reads_lock (follows_locks r hus)).map)
    simpa [lockTokens] using Turns.turn _ hlock (List.cons_ne_nil _ _) hnext

theorem reads_forClauses (ls : List (Bool × Option String × Option Waiting))
    (hus : Follows [")", ";"] [] us) : Reads forClauses (lockTokens ls) us (ls.map lockOf, none) :=
  (turns_locks ls [] hus).reads

/-! ### Selects -/

/-- The words that may follow a select. -/
def afterSelect : List String :=
  ["UNION", "INTERSECT", "EXCEPT", "ORDER", "LIMIT", "OFFSET", "FOR"]

/-- The tokens of the treatment of equal rows. -/
inductive Distincts (d : Nat) : List Token → Distinct → Prop
  | none : Distincts d [] .none
  | rows : Distincts d [.word "DISTINCT"] .rows
  | on {ts : List Token} {xs : List Expr} (h : Listed (Item d) ts xs) :
    Distincts d (.word "DISTINCT" :: .word "ON" :: .symbol "(" :: (ts ++ [.symbol ")"])) (.on xs)

theorem Listed.front_ne_close {xs : List Expr} (h : Listed (Item d) ts xs) :
    front (ts ++ us) ≠ .symbol ")" := by
  cases h with
  | one h =>
    obtain ⟨paren, hlead⟩ := h.leads
    exact hlead.symbol_ne ⟨by decide, by decide, .inr (by decide)⟩
  | cons h hrest =>
    obtain ⟨paren, hlead⟩ := h.leads
    rw [List.append_assoc]
    exact hlead.symbol_ne ⟨by decide, by decide, .inr (by decide)⟩

theorem Distincts.reads {x : Distinct} (h : Distincts d ts x) (hus : frontKey us ∉ nonStarters) :
    Reads (distinct (.atDepth (d + 1))) ts us x := by
  have hne (k : String) (hk : k ∈ nonStarters) : frontKey us ≠ k := by
    rintro rfl
    exact hus hk
  refine Reads.peek fun _ _ _ => ?_
  cases h with
  | none =>
    refine Reads.skip (reads_word?_of_ne (hne "ALL" (by decide))) ?_
    exact Reads.wordElse (hne "DISTINCT" (by decide)) (Reads.pure _ us)
  | rows =>
    refine Reads.skip (reads_word?_of_ne (show Lexer.keyOf (.word "DISTINCT") ≠ "ALL" by decide)) ?_
    exact Reads.wordThen rfl (Reads.wordElse (hne "ON" (by decide)) (Reads.pure _ us))
  | on h =>
    refine Reads.skip (reads_word?_of_ne (show Lexer.keyOf (.word "DISTINCT") ≠ "ALL" by decide)) ?_
    refine Reads.wordThen rfl
      (Reads.wordThen rfl (Reads.map (reads_parens (Reads.skip (reads_nextIs ")" _) ?_))))
    rw [beq_eq_false_iff_ne.2 h.front_ne_close]
    exact h.exprs_close us

/-- An item of a grouping, which starts with no parenthesis. -/
structure GroupsBy (d : Nat) (ts : List Token) (x : Expr) : Prop where
  item : Item d ts x
  leads : Leads false ts

theorem reads_symbols?_of_ne {s : String} {r : List String} (h : front us ≠ .symbol s) :
    Reads (symbols? (s :: r)) [] us false := by
  intro ls rest hls hrest
  cases hls
  rw [← hrest.front_token] at h
  refine if_neg ?_
  cases rest with
  | nil => simp
  | cons l rest =>
    intro heq
    injection heq with heq
    exact h heq

theorem GroupsBy.reads (h : GroupsBy d ts x) (hus : Stops us) :
    Reads (groupItem (.atDepth (d + 1))) ts us x := by
  refine Reads.wordsElse (h.item.key_ne (by decide)) (Reads.wordElse (h.item.key_ne (by decide)) ?_)
  refine Reads.wordElse (h.item.key_ne (by decide)) ?_
  exact Reads.skip (reads_symbols?_of_ne (h.leads.symbol_ne (by decide))) (h.item.reads hus)

/-- The tokens of a grouping. -/
inductive Groups (d : Nat) : List Token → List Expr → Prop
  | none : Groups d [] []
  | some {ts : List Token} {xs : List Expr} (h : Listed (GroupsBy d) ts xs) :
    Groups d (.word "GROUP" :: .word "BY" :: ts) xs

theorem Groups.starts {xs : List Expr} (h : Groups d ts xs) : Starts "GROUP" ts := by
  cases h with
  | none => exact .inl rfl
  | some => exact .inr ⟨_, rfl⟩

theorem Groups.reads {xs : List Expr} (h : Groups d ts xs)
    (hus : Follows [")", ";"] ("HAVING" :: afterSelect) us) :
    Reads (groupBy (.atDepth (d + 1))) ts us (xs, false, []) := by
  cases h with
  | none => exact Reads.wordsElse (hus.key_ne (by decide)) (Reads.pure _ us)
  | @some ts xs h =>
    have hall : frontKey (ts ++ us) ≠ "ALL" := by
      cases h with
      | one h => exact h.item.key_ne (by decide)
      | cons h hrest =>
        rw [List.append_assoc]
        exact h.item.key_ne (by decide)
    have hitems : Many (symbol? ",") (groupItem (.atDepth (d + 1))) ts us xs := h.many
      (by decide : "," ∈ [",", ")", ";"])
      (fun hitem hus => hitem.reads (hus.stops (by decide) (by decide)))
      (hus.mono (by decide) (List.Subset.refl _)) (hus.symbol_ne (by decide))
    refine Reads.wordsThen [.word "GROUP", .word "BY"] rfl (Reads.skip (reads_word?_of_ne hall) ?_)
    refine Reads.last hitems.reads ?_
    exact Reads.skip (Reads.wordsElse (hus.key_ne (by decide)) (Reads.pure _ us)) (Reads.pure _ us)

end Parser
end SqlLayout.Sql
