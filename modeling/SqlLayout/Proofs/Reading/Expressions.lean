import SqlLayout.Proofs.Reading.Operands

/-!
Expressions. An operator takes what stands before it when this binds more tightly than the operator before
it does, so each operator keeps track of how tightly its operands bind on both sides.
-/

namespace SqlLayout.Sql
namespace Parser

variable {d l r l' r' : Nat} {x y z : Expr} {ts ts' us : List Token} {w : String} {paren : Bool}

/-! ### Parentheses and signs -/

/-- A query that is read up to the parenthesis after it. -/
def ParsesQuery (d : Nat) (ts : List Token) (q : Query) : Prop :=
  ∀ us, front us = .symbol ")" → Reads (Grammar.atDepth d).query ts us q

theorem ends_close (us : List Token) : Ends (.symbol ")" :: us) := rfl

theorem Parses.reads_before_close {n : Nat} (h : Parses d l r ts x) (hn : n < l) :
    Reads ((Grammar.atDepth (d + 1)).expr n) ts (.symbol ")" :: us) x :=
  h.reads hn (ends_close us) (Nat.zero_le _) (Nat.zero_le _)

theorem Parses.nested (h : Parses d l r ts x) (hl : 0 < l) (hlead : Leads paren ts) :
    Parses (d + 1) l' r' (.symbol "(" :: (ts ++ [.symbol ")"])) (.nested x) := by
  refine Parses.of_operand fun us hends _ fuel => ?_
  refine reads_operand_symbol (by decide) (fun m => ?_) hends
  change Reads (parenthesized _) _ _ _
  have hexprs : Reads (Grammar.atDepth (d + 1)).exprs ts (.symbol ")" :: us) [x] :=
    (Many.one (h.reads_before_close hl) (reads_symbol?_of_ne (by simp))).reads
  have hquery : ["SELECT", "WITH"].contains (frontKey (ts ++ ([.symbol ")"] ++ us))) = false := by
    have hkey : frontKey (ts ++ ([.symbol ")"] ++ us)) ∉ nonStarters := hlead.key_not_mem
    rw [List.contains_eq_mem, decide_eq_false_iff_not]
    exact fun hmem => hkey ((by decide : ["SELECT", "WITH"] ⊆ nonStarters) hmem)
  refine Reads.skip (reads_nextIsOneOf _ _) ?_
  rw [List.append_assoc, hquery, Bool.and_false]
  exact Reads.bind hexprs
    (Reads.skip (Reads.pure _ _) (Reads.last (reads_symbol ")" us) (Reads.pure _ us)))

theorem Parses.subquery {q : Query} (h : ParsesQuery (d + 1) ts q)
    (hkey : frontKey ts ∈ ["SELECT", "WITH"]) :
    Parses (d + 1) l' r' (.symbol "(" :: (ts ++ [.symbol ")"])) (.subquery q) := by
  refine Parses.of_operand fun us hends _ fuel => ?_
  refine reads_operand_symbol (by decide) (fun m => ?_) hends
  change Reads (parenthesized _) _ _ _
  have hfront : frontKey (ts ++ ([.symbol ")"] ++ us)) = frontKey ts := by
    cases ts with
    | nil => exact absurd hkey (by decide)
    | cons t ts => rfl
  have hquery : (frontKey ts != "" && ["SELECT", "WITH"].contains (frontKey ts)) = true := by
    generalize frontKey ts = k at hkey
    revert k
    decide
  refine Reads.skip (reads_nextIsOneOf _ _) ?_
  rw [List.append_assoc, hfront, hquery]
  exact Reads.bind (h _ rfl)
    (Reads.skip (Reads.pure _ _) (Reads.last (reads_symbol ")" us) (Reads.pure _ us)))

theorem Parses.not (h : Parses d l r ts x) (hl : Strength.not < l)
    (hlead : ∀ us, frontKey (ts ++ us) ≠ "EXISTS") :
    Parses (d + 1) l' (min Strength.not r) (.word "NOT" :: ts) (.unary .not x) := by
  refine Parses.phrase rfl (fun _ _ => rfl) fun us hends hstrength => ?_
  rw [Nat.le_min] at hstrength
  exact Reads.wordElse (hlead us) (h.reads hl hends hstrength.2 hstrength.1).map

theorem Parses.minus (h : Parses d l r ts x) (hl : Strength.product < l) :
    Parses (d + 1) l' (min Strength.product r) (.symbol "-" :: ts) (.unary .minus x) := by
  refine Parses.of_operand fun us hends hstrength fuel => ?_
  rw [Nat.le_min] at hstrength
  exact reads_operand_symbol (by decide) (fun m => (h.reads hl hends hstrength.2 hstrength.1).map) hends

theorem Parses.plus (h : Parses d l r ts x) (hl : Strength.product < l) :
    Parses (d + 1) l' (min Strength.product r) (.symbol "+" :: ts) (.unary .plus x) := by
  refine Parses.of_operand fun us hends hstrength fuel => ?_
  rw [Nat.le_min] at hstrength
  exact reads_operand_symbol (by decide) (fun m => (h.reads hl hends hstrength.2 hstrength.1).map) hends

/-! ### Operators -/

theorem reads_rightSide {s : Nat} {t : Lexeme} {op : BinaryOp} {g : Grammar}
    (h : Reads (g.expr s) ts us y) (hlead : Leads paren ts) :
    Reads (rightSide g s x t op) ts us (.binary x op y) := by
  have hkey : frontKey (ts ++ us) ∉ ["ANY", "ALL", "SOME"] :=
    fun hmem => hlead.key_not_mem ((by decide : ["ANY", "ALL", "SOME"] ⊆ nonStarters) hmem)
  exact Reads.skip (reads_oneOf?_of_not_mem hkey) h.map

/-- An expression, an operator that takes the tokens `mid`, and what the operator makes of it. -/
theorem Parses.climb {s : Nat} {mid : List Token} (h : Parses d l r ts x) (hs : s ≤ r)
    (hends : ∀ us, Ends (mid ++ us)) (hstrength : ∀ us, strengthOf (mid ++ us) = s) (hne : mid ≠ [])
    (hperiod : s ≠ Strength.period)
    (hafter : ∀ us, Ends us → strengthOf us ≤ r' → Reads (afterOperand (.atDepth d) s x) mid us y) :
    Parses d (min s l) r' (ts ++ mid) y := by
  intro n hn more us z hmore hr hclimbs
  rw [Nat.lt_min] at hn
  rw [List.append_assoc]
  refine h n hn.2 (mid ++ more) us z ?_ ?_ ?_
  · rw [List.append_assoc]
    exact hends _
  · rw [List.append_assoc, hstrength]
    exact hs
  · exact Climbs.step (hstrength _) hn.1 hperiod (hafter _ hmore hr) hne hclimbs

theorem Parses.operation {s op : String} (hop : binarySymbol? s = some op)
    (hs : endSymbols.contains s = true) (hperiod : symbolStrength s ≠ Strength.period)
    (h : Parses (d + 1) l r ts x) (hr : symbolStrength s ≤ r)
    (h' : Parses d l' r' ts' y) (hl' : symbolStrength s < l') (hlead : Leads paren ts') :
    Parses (d + 1) (min (symbolStrength s) l) (min (symbolStrength s) r') (ts ++ .symbol s :: ts')
      (.binary x (.other op) y) := by
  refine h.climb hr (fun us => hs) (fun us => rfl) (List.cons_ne_nil _ _) hperiod fun us hends
    hstrength => ?_
  rw [Nat.le_min] at hstrength
  refine Reads.get fun start => Reads.next fun m hm => ?_
  have hbinary : Reads (binaryOp? m) [] (ts' ++ us) (some (.other op)) := by
    rw [binaryOp?, hm.token]
    simp only [hop]
    exact Reads.pure _ _
  exact Reads.skip hbinary (reads_rightSide (h'.reads hl' hends hstrength.2 hstrength.1) hlead)

theorem Parses.conjunction (h : Parses (d + 1) l r ts x) (hr : Strength.and ≤ r)
    (h' : Parses d l' r' ts' y) (hl' : Strength.and < l') (hlead : Leads paren ts') :
    Parses (d + 1) (min Strength.and l) (min Strength.and r') (ts ++ .word "AND" :: ts')
      (.binary x .and y) := by
  refine h.climb hr (fun us => rfl) (fun us => rfl) (List.cons_ne_nil _ _) (by decide) fun us hends
    hstrength => ?_
  rw [Nat.le_min] at hstrength
  refine Reads.get fun start => Reads.next fun m hm => ?_
  have hbinary : Reads (binaryOp? m) [] (ts' ++ us) (some .and) := by
    rw [binaryOp?, hm.token, hm.key]
    exact Reads.pure _ _
  exact Reads.skip hbinary (reads_rightSide (h'.reads hl' hends hstrength.2 hstrength.1) hlead)

theorem Parses.disjunction (h : Parses (d + 1) l r ts x) (hr : Strength.or ≤ r)
    (h' : Parses d l' r' ts' y) (hl' : Strength.or < l') (hlead : Leads paren ts') :
    Parses (d + 1) (min Strength.or l) (min Strength.or r') (ts ++ .word "OR" :: ts')
      (.binary x .or y) := by
  refine h.climb hr (fun us => rfl) (fun us => rfl) (List.cons_ne_nil _ _) (by decide) fun us hends
    hstrength => ?_
  rw [Nat.le_min] at hstrength
  refine Reads.get fun start => Reads.next fun m hm => ?_
  have hbinary : Reads (binaryOp? m) [] (ts' ++ us) (some .or) := by
    rw [binaryOp?, hm.token, hm.key]
    exact Reads.pure _ _
  exact Reads.skip hbinary (reads_rightSide (h'.reads hl' hends hstrength.2 hstrength.1) hlead)

/-! ### Tests -/

/-- An operator that starts with a word and is no plain one. -/
theorem afterOperand_word {g : Grammar} {s : Nat} {m : Lexeme} {ls : List Lexeme} (hm : m.Is (.word w))
    (hw : Lexer.keyOf (.word w) ∉ ["AND", "OR", "XOR", "OVERLAPS", "OPERATOR"]) :
    afterOperand g s x .anywhere (m :: ls) = wordOperator g s x (m :: ls) m .anywhere ls := by
  simp only [List.mem_cons, List.not_mem_nil, or_false, not_or] at hw
  obtain ⟨hand, hor, hxor, hoverlaps, hoperator⟩ := hw
  have hbinary : binaryOp? m .anywhere ls = .ok none ls := by
    rw [binaryOp?, hm.token, hm.key]
    simp only
    rfl
  refine (bind_run hbinary).trans ?_
  simp only [List.headD_cons, hm.token]

theorem reads_afterOperand_word {g : Grammar} {s : Nat} {p : Parser Expr}
    (hw : Lexer.keyOf (.word w) ∉ ["AND", "OR", "XOR", "OVERLAPS", "OPERATOR"])
    (hp : ∀ start (m : Lexeme), m.Is (.word w) → wordOperator g s x start m = p)
    (h : Reads p ts us y) : Reads (afterOperand g s x) (.word w :: ts) us y := by
  intro ls rest hls hrest
  obtain _ | ⟨hm, hls⟩ := hls
  rw [List.cons_append, afterOperand_word hm hw, hp _ _ hm]
  exact h _ rest hls hrest

theorem Parses.test {truth : Truth} {k : String} (h : Parses d l r ts x) (hr : Strength.is ≤ r)
    (htruth : truths.lookup (Lexer.keyOf (.word k)) = some truth) :
    Parses d (min Strength.is l) r' (ts ++ [.word "IS", .word k]) (.is x false truth) := by
  refine h.climb hr (fun us => rfl) (fun us => rfl) (List.cons_ne_nil _ _) (by decide) fun us _ _ => ?_
  refine reads_afterOperand_word (p := isTest _ x) (by decide)
    (fun start m hm => by rw [wordOperator, hm.key]; rfl) ?_
  refine Reads.peek fun m _ hm => Reads.peekAt fun m' _ _ => ?_
  change m.key = Lexer.keyOf (.word k) at hm
  rw [hm, htruth]
  exact Reads.next fun _ _ => Reads.pure _ us

theorem Parses.testNot {truth : Truth} {k : String} (h : Parses d l r ts x) (hr : Strength.is ≤ r)
    (htruth : truths.lookup (Lexer.keyOf (.word k)) = some truth) :
    Parses d (min Strength.is l) r' (ts ++ [.word "IS", .word "NOT", .word k]) (.is x true truth) := by
  refine h.climb hr (fun us => rfl) (fun us => rfl) (List.cons_ne_nil _ _) (by decide) fun us _ _ => ?_
  refine reads_afterOperand_word (p := isTest _ x) (by decide)
    (fun start m hm => by rw [wordOperator, hm.key]; rfl) ?_
  refine Reads.peek fun m _ hm => Reads.peekAt fun m' _ hm' => ?_
  change m.key = "NOT" at hm
  change m'.key = Lexer.keyOf (.word k) at hm'
  simp only [hm, hm', htruth]
  exact Reads.next fun _ _ => Reads.next fun _ _ => Reads.pure _ us

theorem Parses.distinctFrom (h : Parses (d + 1) l r ts x) (hr : Strength.is ≤ r)
    (h' : Parses d l' r' ts' y) (hl' : 0 < l') :
    Parses (d + 1) (min Strength.is l) 0 (ts ++ .word "IS" :: .word "DISTINCT" :: .word "FROM" :: ts')
      (.distinctFrom x false y) := by
  refine h.climb hr (fun us => rfl) (fun us => rfl) (List.cons_ne_nil _ _) (by decide) fun us hends
    hstrength => ?_
  refine reads_afterOperand_word (p := isTest _ x) (by decide)
    (fun start m hm => by rw [wordOperator, hm.key]; rfl) ?_
  refine Reads.peek fun m _ hm => Reads.peekAt fun m' _ hm' => ?_
  change m.key = "DISTINCT" at hm
  change m'.key = "FROM" at hm'
  simp only [hm, hm']
  refine Reads.wordsThen [.word "DISTINCT", .word "FROM"] rfl ?_
  exact (h'.reads hl' hends (Nat.le_trans hstrength (Nat.zero_le _)) hstrength).map

theorem Parses.notDistinctFrom (h : Parses (d + 1) l r ts x) (hr : Strength.is ≤ r)
    (h' : Parses d l' r' ts' y) (hl' : 0 < l') :
    Parses (d + 1) (min Strength.is l) 0
      (ts ++ .word "IS" :: .word "NOT" :: .word "DISTINCT" :: .word "FROM" :: ts')
      (.distinctFrom x true y) := by
  refine h.climb hr (fun us => rfl) (fun us => rfl) (List.cons_ne_nil _ _) (by decide) fun us hends
    hstrength => ?_
  refine reads_afterOperand_word (p := isTest _ x) (by decide)
    (fun start m hm => by rw [wordOperator, hm.key]; rfl) ?_
  refine Reads.peek fun m _ hm => Reads.peekAt fun m' _ hm' => ?_
  change m.key = "NOT" at hm
  change m'.key = "DISTINCT" at hm'
  simp only [hm, hm']
  refine Reads.wordsElse (show Lexer.keyOf (.word "NOT") ≠ "DISTINCT" by decide) ?_
  refine Reads.wordsThen [.word "NOT", .word "DISTINCT", .word "FROM"] rfl ?_
  exact (h'.reads hl' hends (Nat.le_trans hstrength (Nat.zero_le _)) hstrength).map

/-! ### Predicates -/

/-- The tokens of a predicate that may be negated, from its first word on. -/
def predicateTokens (negated : Bool) (ts : List Token) : List Token :=
  if negated then .word "NOT" :: ts else ts

/-- A predicate after the word that negates it. -/
def predicateAfter (g : Grammar) (e : Expr) (negated : Bool) : Parser Expr := do
  if ← word? "IN" then inTest g e negated
  else if ← word? "BETWEEN" then
    let low ← g.expr Strength.pattern
    word "AND"
    return .between e negated low (← g.expr Strength.pattern)
  else if ← word? "LIKE" then matchTest g .like e negated
  else if ← word? "ILIKE" then matchTest g .ilike e negated
  else if ← words? ["SIMILAR", "TO"] then matchTest g .similarTo e negated
  else expected "IN or BETWEEN after NOT"

theorem reads_predicate {g : Grammar} (negated : Bool)
    (hw : Lexer.keyOf (.word w) ∉ ["NOT", "REGEXP", "RLIKE", "NULL"])
    (h : Reads (predicateAfter g x negated) (.word w :: ts) us y) :
    Reads (predicate g x) (predicateTokens negated (.word w :: ts)) us y := by
  simp only [List.mem_cons, List.not_mem_nil, or_false, not_or] at hw
  have hrest : ∀ negated, Reads (predicateAfter g x negated) (.word w :: ts) us y → Reads (do
      let regexp ← word? "REGEXP"
      let rlike ← word? "RLIKE"
      let null ← if (← read) == .columnDefinition then pure false else word? "NULL"
      if regexp || rlike then
        let form ← g.expr Strength.pattern
        return .phrase (x.print ++ " " ++ notWord negated ++ (if regexp then "REGEXP " else "RLIKE ") ++
          form.print)
      else if negated && null then return .is x true .null
      else predicateAfter g x negated) (.word w :: ts) us y := by
    intro negated h
    refine Reads.skip (reads_word?_of_ne hw.2.1) (Reads.skip (reads_word?_of_ne hw.2.2.1) ?_)
    refine Reads.read (Reads.skip (reads_word?_of_ne hw.2.2.2) ?_)
    cases negated <;> exact h
  cases negated with
  | false => exact Reads.skip (reads_word?_of_ne hw.1) (hrest false h)
  | true => exact Reads.take (reads_word? rfl) (hrest true h)

/-- A predicate is read from its first word on. -/
theorem reads_afterOperand_predicate {g : Grammar} {s : Nat}
    (hw : Lexer.keyOf (.word w) ∈ ["NOT", "IN", "BETWEEN", "LIKE", "ILIKE"])
    (h : Reads (predicate g x) (.word w :: ts) us y) :
      Reads (afterOperand g s x) (.word w :: ts) us y := by
  intro ls rest hls hrest
  have hpredicate := h ls rest hls hrest
  obtain _ | ⟨hm, hls⟩ := hls
  have hplain : Lexer.keyOf (.word w) ∉ ["AND", "OR", "XOR", "OVERLAPS", "OPERATOR"] := by
    generalize Lexer.keyOf (.word w) = k at hw
    revert k
    decide
  rw [List.cons_append, afterOperand_word hm hplain, wordOperator, hm.key, ← hpredicate]
  simp only [List.mem_cons, List.not_mem_nil, or_false] at hw
  obtain hw | hw | hw | hw | hw := hw <;> simp only [hw] <;> rfl

theorem predicateTokens_append (negated : Bool) (ts us : List Token) :
    predicateTokens negated ts ++ us = predicateTokens negated (ts ++ us) := by
  cases negated <;> rfl

/-- An expression and a predicate after it. -/
theorem Parses.predicate {negated : Bool} (h : Parses d l r ts x) (hr : Strength.pattern ≤ r)
    (hw : w ∈ ["IN", "BETWEEN", "LIKE", "ILIKE"])
    (h' : ∀ us, Ends us → strengthOf us ≤ r' →
      Reads (predicateAfter (.atDepth d) x negated) (.word w :: ts') us y) :
    Parses d (min Strength.pattern l) r' (ts ++ predicateTokens negated (.word w :: ts')) y := by
  have hfacts : ∀ w ∈ ["IN", "BETWEEN", "LIKE", "ILIKE"], ends (.word w) = true ∧
      predicateWords.contains (Lexer.keyOf (.word w)) = true ∧
      Lexer.keyOf (.word w) ∉ ["NOT", "REGEXP", "RLIKE", "NULL"] ∧
      Lexer.keyOf (.word w) ∈ ["NOT", "IN", "BETWEEN", "LIKE", "ILIKE"] := by decide
  obtain ⟨hends, hpredicate, hplain, hmem⟩ := hfacts w hw
  cases negated with
  | false =>
    refine h.climb hr (fun us => hends) (fun us => if_pos hpredicate) (List.cons_ne_nil _ _)
      (by decide) ?_
    intro us hus hstrength
    exact reads_afterOperand_predicate hmem (reads_predicate false hplain (h' us hus hstrength))
  | true =>
    refine h.climb hr (fun us => rfl) (fun us => if_pos hpredicate) (List.cons_ne_nil _ _) (by decide) ?_
    intro us hus hstrength
    exact reads_afterOperand_predicate (by decide) (reads_predicate true hplain (h' us hus hstrength))

theorem Parses.between {negated : Bool} {low high : Expr} {l₁ r₁ l₂ r₂ : Nat} {ts₁ ts₂ : List Token}
    (h : Parses (d + 1) l r ts x) (hr : Strength.pattern ≤ r) (hlow : Parses d l₁ r₁ ts₁ low)
    (hl₁ : Strength.pattern < l₁) (hr₁ : Strength.and ≤ r₁) (hhigh : Parses d l₂ r₂ ts₂ high)
    (hl₂ : Strength.pattern < l₂) :
    Parses (d + 1) (min Strength.pattern l) (min Strength.pattern r₂)
      (ts ++ predicateTokens negated (.word "BETWEEN" :: (ts₁ ++ .word "AND" :: ts₂)))
      (.between x negated low high) := by
  refine h.predicate hr (by decide) fun us hends hstrength => ?_
  rw [Nat.le_min] at hstrength
  refine Reads.wordElse (show Lexer.keyOf (.word "BETWEEN") ≠ "IN" by decide) (Reads.wordThen rfl ?_)
  refine Reads.bind (hlow.reads hl₁ rfl hr₁ (show Strength.and ≤ Strength.pattern by decide))
    (Reads.take (reads_word rfl) ?_)
  exact (hhigh.reads hl₂ hends hstrength.2 hstrength.1).map

theorem reads_matchTest {matching : Matching} {negated : Bool} {g : Grammar}
    (hmatching : matching ≠ .similarTo)
    (h : Reads (g.expr Strength.pattern) ts us y) (hends : Ends us) (hlead : Leads paren ts) :
    Reads (matchTest g matching x negated) ts us (.pattern matching x negated y none) := by
  rw [matchTest, if_neg (by simpa using hmatching)]
  refine Reads.skip (reads_word?_of_ne (hlead.key_ne (by decide))) (Reads.last h ?_)
  exact Reads.skip (reads_afterWord_none (hends.key_ne (by decide))) (Reads.pure _ us)

theorem Parses.like (negated : Bool) (h : Parses (d + 1) l r ts x) (hr : Strength.pattern ≤ r)
    (h' : Parses d l' r' ts' y) (hl' : Strength.pattern < l') (hlead : Leads paren ts') :
    Parses (d + 1) (min Strength.pattern l) (min Strength.pattern r')
      (ts ++ predicateTokens negated (.word "LIKE" :: ts')) (.pattern .like x negated y none) := by
  refine h.predicate hr (by decide) fun us hends hstrength => ?_
  rw [Nat.le_min] at hstrength
  refine Reads.wordElse (show Lexer.keyOf (.word "LIKE") ≠ "IN" by decide) ?_
  refine Reads.wordElse (show Lexer.keyOf (.word "LIKE") ≠ "BETWEEN" by decide) (Reads.wordThen rfl ?_)
  exact reads_matchTest (by decide) (h'.reads hl' hends hstrength.2 hstrength.1) hends hlead

theorem Parses.ilike (negated : Bool) (h : Parses (d + 1) l r ts x) (hr : Strength.pattern ≤ r)
    (h' : Parses d l' r' ts' y) (hl' : Strength.pattern < l') (hlead : Leads paren ts') :
    Parses (d + 1) (min Strength.pattern l) (min Strength.pattern r')
      (ts ++ predicateTokens negated (.word "ILIKE" :: ts')) (.pattern .ilike x negated y none) := by
  refine h.predicate hr (by decide) fun us hends hstrength => ?_
  rw [Nat.le_min] at hstrength
  refine Reads.wordElse (show Lexer.keyOf (.word "ILIKE") ≠ "IN" by decide) ?_
  refine Reads.wordElse (show Lexer.keyOf (.word "ILIKE") ≠ "BETWEEN" by decide) ?_
  refine Reads.wordElse (show Lexer.keyOf (.word "ILIKE") ≠ "LIKE" by decide) (Reads.wordThen rfl ?_)
  exact reads_matchTest (by decide) (h'.reads hl' hends hstrength.2 hstrength.1) hends hlead

/-- A list of expressions before a parenthesis. -/
def ParsesList (d : Nat) (ts : List Token) (xs : List Expr) : Prop :=
  ∀ us, Reads (Grammar.atDepth d).exprs ts (.symbol ")" :: us) xs

theorem fails_query {g : Grammar} (hlead : Leads false ts) : Fails (query g) (ts ++ us) := by
  have hkey : frontKey (ts ++ us) ∉ nonStarters := hlead.key_not_mem
  have hne (k : String) (hk : k ∈ nonStarters) : frontKey (ts ++ us) ≠ k := by
    rintro rfl
    exact hkey hk
  have hmutation : Reads (mutationBody? g) [] (ts ++ us) none := by
    refine Reads.skip (reads_oneOf?_of_not_mem fun hmem => hkey ?_) (Reads.pure none _)
    exact (by decide : ["INSERT", "UPDATE", "DELETE", "MERGE"] ⊆ nonStarters) hmem
  have hsimple : Fails (simpleBody g) (ts ++ us) := by
    refine Fails.skip (reads_word?_of_ne (hne "SELECT" (by decide))) ?_
    refine Fails.skip (reads_symbol?_of_ne (hlead.symbol_ne (by decide))) ?_
    refine Fails.skip (reads_oneOf?_of_not_mem fun hmem => hkey ?_) (fails_expected _ _)
    exact (by decide : ["VALUES", "VALUE", "TABLE"] ⊆ nonStarters) hmem
  refine Fails.skip (reads_word?_of_ne (hne "WITH" (by decide))) (Fails.skip (Reads.pure _ _) ?_)
  refine Fails.skip hmutation ?_
  exact Fails.bind (Fails.bind (Fails.bind hsimple))

theorem Parses.inList {negated : Bool} {xs : List Expr} (h : Parses (d + 1) l r ts x)
    (hr : Strength.pattern ≤ r) (h' : ParsesList (d + 1) ts' xs) (hlead : Leads false ts') :
    Parses (d + 1) (min Strength.pattern l) r'
      (ts ++ predicateTokens negated (.word "IN" :: .symbol "(" :: (ts' ++ [.symbol ")"])))
      (.inList x negated xs) := by
  refine h.predicate hr (by decide) fun us hends _ => ?_
  refine Reads.wordThen rfl (Reads.wordElse (show Lexer.keyOf (.symbol "(") ≠ "UNNEST" by decide) ?_)
  refine Reads.take (reads_symbol "(" _) ?_
  have hquery : Reads (attempt (Grammar.atDepth (d + 1)).query) [] (ts' ++ [.symbol ")"] ++ us)
      none := by
    rw [List.append_assoc]
    exact (fails_query hlead).attempt
  refine Reads.skip hquery (Reads.bind (h' us) ?_)
  exact Reads.skip (Reads.pure _ _) (Reads.last (reads_symbol ")" us) (Reads.pure _ us))

theorem Parses.inQuery {negated : Bool} {q : Query} (h : Parses d l r ts x)
    (hr : Strength.pattern ≤ r) (h' : ParsesQuery d ts' q) :
    Parses d (min Strength.pattern l) r'
      (ts ++ predicateTokens negated (.word "IN" :: .symbol "(" :: (ts' ++ [.symbol ")"])))
      (.inQuery x negated q) := by
  refine h.predicate hr (by decide) fun us hends _ => ?_
  refine Reads.wordThen rfl (Reads.wordElse (show Lexer.keyOf (.symbol "(") ≠ "UNNEST" by decide) ?_)
  refine Reads.take (reads_symbol "(" _) ?_
  refine Reads.bind (h' _ rfl).attempt ?_
  exact Reads.skip (Reads.pure _ _) (Reads.last (reads_symbol ")" us) (Reads.pure _ us))

theorem Parses.exists {q : Query} (h : ParsesQuery d ts q) :
    Parses d l r (.word "EXISTS" :: .symbol "(" :: (ts ++ [.symbol ")"])) (.existsIn false q) :=
  Parses.phrase rfl (fun _ _ => rfl) fun _ _ _ => (reads_parens (h _ rfl)).map

theorem Parses.notExists {q : Query} (h : ParsesQuery d ts q) :
    Parses d l r (.word "NOT" :: .word "EXISTS" :: .symbol "(" :: (ts ++ [.symbol ")"]))
      (.existsIn true q) :=
  Parses.phrase rfl (fun _ _ => rfl) fun _ _ _ => Reads.wordThen rfl (reads_parens (h _ rfl)).map

/-! ### Optional expressions and cases -/

/-- Tokens that end every expression. -/
def Stops (us : List Token) : Prop :=
  Ends us ∧ strengthOf us = 0

theorem Parses.reads_all (h : Parses d l r ts x) (hl : 0 < l) (hus : Stops us) :
    Reads (Grammar.atDepth (d + 1)).anyExpr ts us x :=
  h.reads hl hus.1 (hus.2 ▸ Nat.zero_le r) (hus.2 ▸ Nat.le_refl 0)

/-- An expression after a word, or nothing. -/
inductive ParsesOption (d : Nat) (w : String) : List Token → Option Expr → Prop
  | none : ParsesOption d w [] none
  | some {l r : Nat} {ts : List Token} {x : Expr} (h : Parses d l r ts x) (hl : 0 < l) :
    ParsesOption d w (.word w :: ts) (some x)

theorem ParsesOption.reads {o : Option Expr} (h : ParsesOption d w ts o) (hus : Stops us)
    (hw : frontKey us ≠ Lexer.keyOf (.word w)) :
    Reads (afterWord (Lexer.keyOf (.word w)) (Grammar.atDepth (d + 1)).anyExpr) ts us o := by
  cases h with
  | none => exact reads_afterWord_none hw
  | some h hl => exact reads_afterWord rfl (h.reads_all hl hus)

theorem ParsesOption.stops {o : Option Expr} (h : ParsesOption d w ts o) (hus : Stops us)
    (hw : ∀ us, Stops (.word w :: us)) : Stops (ts ++ us) := by
  cases h with
  | none => exact hus
  | some h hl => exact hw _

theorem ParsesOption.key_ne {o : Option Expr} {k : String} (h : ParsesOption d w ts o)
    (hus : frontKey us ≠ k) (hk : Lexer.keyOf (.word w) ≠ k) : frontKey (ts ++ us) ≠ k := by
  cases h with
  | none => exact hus
  | some h hl => exact hk

/-- One branch of a `CASE` after its first word. -/
def branch (g : Grammar) : Parser When := do
  let condition ← g.anyExpr
  word "THEN"
  return When.mk condition (← g.anyExpr)

/-- The branches of a `CASE` after the first word. -/
inductive ParsesWhens (d : Nat) : List Token → List When → Prop
  | one {l r l' r' : Nat} {ts ts' : List Token} {x y : Expr} (h : Parses d l r ts x) (hl : 0 < l)
      (h' : Parses d l' r' ts' y) (hl' : 0 < l') : ParsesWhens d (ts ++ .word "THEN" :: ts') [⟨x, y⟩]
  | cons {l r l' r' : Nat} {ts ts' ts'' : List Token} {x y : Expr} {ws : List When}
      (h : Parses d l r ts x)
      (hl : 0 < l) (h' : Parses d l' r' ts' y) (hl' : 0 < l') (hws : ParsesWhens d ts'' ws) :
      ParsesWhens d (ts ++ .word "THEN" :: ts' ++ .word "WHEN" :: ts'') (⟨x, y⟩ :: ws)

theorem reads_branch (h : Parses d l r ts x) (hl : 0 < l) (h' : Parses d l' r' ts' y) (hl' : 0 < l')
    (hus : Stops us) : Reads (branch (.atDepth (d + 1))) (ts ++ .word "THEN" :: ts') us ⟨x, y⟩ :=
  Reads.bind (h.reads_all hl ⟨rfl, rfl⟩) (Reads.take (reads_word rfl) (h'.reads_all hl' hus).map)

theorem ParsesWhens.many {ws : List When} (h : ParsesWhens d ts ws) (hus : Stops us)
    (hwhen : frontKey us ≠ "WHEN") : Many (word? "WHEN") (branch (.atDepth (d + 1))) ts us ws := by
  induction h with
  | one h hl h' hl' => exact Many.one (reads_branch h hl h' hl' hus) (reads_word?_of_ne hwhen)
  | cons h hl h' hl' _ ih => exact Many.cons (reads_branch h hl h' hl' ⟨rfl, rfl⟩) (reads_word? rfl) ih

theorem reads_caseEnd {ws : List When} {o default : Option Expr} (hws : ParsesWhens d ts ws)
    (ho : ParsesOption d "ELSE" ts' default) :
    Reads (do
      let whens ← manyWith (word? "WHEN") (branch (.atDepth (d + 1)))
      let otherwise ← afterWord "ELSE" (Grammar.atDepth (d + 1)).anyExpr
      word "END"
      return Expr.caseOf o whens otherwise) (ts ++ (ts' ++ [.word "END"])) us
        (.caseOf o ws default) := by
  refine Reads.bind (hws.many ?_ ?_).reads
    (Reads.bind (ho.reads ⟨rfl, rfl⟩ (frontKey_ne (by decide))) ?_)
  · rw [List.append_assoc]
    exact ho.stops ⟨rfl, rfl⟩ fun _ => ⟨rfl, rfl⟩
  · rw [List.append_assoc]
    exact ho.key_ne (frontKey_ne (by decide)) (by decide)
  · exact Reads.last (reads_word rfl) (Reads.pure _ us)

theorem Parses.caseWhen {ws : List When} {default : Option Expr} (hws : ParsesWhens d ts ws)
    (ho : ParsesOption d "ELSE" ts' default) :
    Parses (d + 1) l r (.word "CASE" :: .word "WHEN" :: (ts ++ (ts' ++ [.word "END"])))
      (.caseOf none ws default) := by
  refine Parses.phrase rfl (fun _ _ => rfl) fun us _ _ => ?_
  exact Reads.wordThen rfl (Reads.skip (Reads.pure _ _) (reads_caseEnd hws ho))

theorem Parses.caseOf {ws : List When} {default : Option Expr} {ts₀ : List Token}
    (h : Parses d l' r' ts₀ x) (hl : 0 < l') (hlead : Leads paren ts₀) (hws : ParsesWhens d ts ws)
    (ho : ParsesOption d "ELSE" ts' default) :
    Parses (d + 1) l r (.word "CASE" :: (ts₀ ++ .word "WHEN" :: (ts ++ (ts' ++ [.word "END"]))))
      (.caseOf (some x) ws default) := by
  refine Parses.phrase rfl (fun _ _ => rfl) fun us _ _ => ?_
  refine Reads.wordElse ?_ (Reads.bind (h.reads_all hl ⟨rfl, rfl⟩) (Reads.take (reads_word rfl) ?_))
  · rw [List.append_assoc]
    exact hlead.key_ne (by decide)
  · exact Reads.skip (Reads.pure _ _) (reads_caseEnd hws ho)

/-! ### Types -/

/-- The built-in types of one word that may do without a size. -/
def sizelessTypes : List String :=
  integerTypes ++ sizedTypes ++ scaledTypes ++
    ["DECIMAL", "DEC", "FLOAT", "REAL", "VARCHAR", "NVARCHAR", "TIMESTAMP", "TIME", "TIMESTAMPTZ",
      "TIMETZ", "INTERVAL"]

/-- The text of the built-in type that a word is. -/
def typeText? (key : String) : Option String :=
  match plainTypes.lookup key with
  | some text => some text
  | none => if sizelessTypes.contains key then some key else none

theorem reads_precision (h : Ends us) : Reads precision [] us "" :=
  Reads.symbolElse (h.symbol_ne (by decide)) (Reads.pure _ us)

theorem reads_precisionAndScale (h : Ends us) : Reads precisionAndScale [] us "" :=
  Reads.symbolElse (h.symbol_ne (by decide)) (Reads.pure _ us)

theorem reads_characterLength (h : Ends us) : Reads characterLength [] us "" :=
  Reads.symbolElse (h.symbol_ne (by decide)) (Reads.pure _ us)

theorem reads_unsigned (h : Ends us) : Reads unsigned [] us "" :=
  Reads.wordElse (h.key_ne (by decide)) (Reads.pure _ us)

theorem reads_timeZone (h : Ends us) : Reads timeZone [] us "" :=
  Reads.skip (reads_oneOf?_of_not_mem (h.not_mem (by decide))) (Reads.pure _ us)

theorem reads_intervalFields (h : Ends us) : Reads intervalFields [] us "" :=
  Reads.skip (reads_oneOf?_of_not_mem (h.not_mem (by decide))) (Reads.pure _ us)

/-- A text with an empty one after it. -/
theorem reads_pure_append (text : String) : Reads (pure (text ++ "") : Parser String) [] us text := by
  rw [String.append_empty]
  exact Reads.pure text us

theorem reads_builtinAfter {key text : String} (hkey : typeText? key = some text) (h : Ends us) :
    ∃ p, builtinAfter key = some p ∧ Reads p [] us text := by
  unfold typeText? at hkey
  split at hkey
  · rename_i hlookup
    cases hkey
    exact ⟨_, by unfold builtinAfter; rw [hlookup], Reads.pure _ us⟩
  · rename_i hlookup
    split at hkey
    · rename_i hmem
      cases hkey
      have hunsigned (text : String) : Reads (do return text ++ (← unsigned)) [] us text :=
        Reads.skip (reads_unsigned h) (reads_pure_append text)
      have hempty (text : String) : text ++ "" = text := String.append_empty
      rw [List.contains_iff_mem, sizelessTypes, List.mem_append, List.mem_append,
        List.mem_append] at hmem
      obtain ((hmem | hmem) | hmem) | hmem := hmem
      · refine ⟨_, by
          unfold builtinAfter
          rw [hlookup]
          exact if_pos (List.contains_iff_mem.2 hmem), ?_⟩
        refine Reads.skip (reads_precision h) ?_
        rw [hempty]
        exact hunsigned key
      · have hother : ∀ k ∈ sizedTypes, integerTypes.contains k = false := by decide
        refine ⟨_, by
          unfold builtinAfter
          rw [hlookup]
          simp only [hother key hmem]
          exact if_pos (List.contains_iff_mem.2 hmem), ?_⟩
        exact Reads.skip (reads_precision h) (reads_pure_append key)
      · have hother : ∀ k ∈ scaledTypes,
            integerTypes.contains k = false ∧ sizedTypes.contains k = false := by decide
        refine ⟨_, by
          unfold builtinAfter
          rw [hlookup]
          simp only [hother key hmem]
          exact if_pos (List.contains_iff_mem.2 hmem), ?_⟩
        exact Reads.skip (reads_precisionAndScale h) (reads_pure_append key)
      · have hscaled (text : String) :
            Reads (do return text ++ (← precisionAndScale) ++ (← unsigned)) [] us text := by
          refine Reads.skip (reads_precisionAndScale h) ?_
          rw [hempty]
          exact hunsigned text
        have hzoned (text : String) : Reads (do
            let p ← precision
            return text ++ p ++ (← timeZone)) [] us text := by
          refine Reads.skip (reads_precision h) (Reads.skip (reads_timeZone h) ?_)
          rw [hempty, hempty]
          exact Reads.pure text us
        simp only [List.mem_cons, List.not_mem_nil, or_false] at hmem
        obtain rfl | rfl | rfl | rfl | rfl | rfl | rfl | rfl | rfl | rfl | rfl := hmem
        · exact ⟨_, rfl, hscaled _⟩
        · exact ⟨_, rfl, hscaled _⟩
        · exact ⟨_, rfl, hscaled _⟩
        · exact ⟨_, rfl, hunsigned _⟩
        · exact ⟨_, rfl, Reads.skip (reads_characterLength h) (reads_pure_append _)⟩
        · exact ⟨_, rfl, Reads.skip (reads_characterLength h) (reads_pure_append _)⟩
        · exact ⟨_, rfl, hzoned _⟩
        · exact ⟨_, rfl, hzoned _⟩
        · exact ⟨_, rfl, Reads.skip (reads_precision h) (reads_pure_append _)⟩
        · exact ⟨_, rfl, Reads.skip (reads_precision h) (reads_pure_append _)⟩
        · refine ⟨_, rfl, Reads.skip (reads_intervalFields h) (Reads.skip (reads_precision h) ?_)⟩
          exact reads_pure_append _
    · cases hkey

theorem reads_dataType {g : Grammar} {type : DataType}
    (h : ∀ n, Reads (dataTypeFrom g (n + 1)) ts us (type, false)) : Reads (dataType g) ts us type :=
  Reads.remaining fun n => Reads.last (h n) (Reads.pure type us)

theorem reads_builtin {g : Grammar} {text : String}
    (hkey : typeText? (Lexer.keyOf (.word w)) = some text)
    (h : Ends us) : Reads (dataType g) [.word w] us (.builtin text) := by
  refine reads_dataType fun n => Reads.peek fun m htoken hm => ?_
  change m.token = .word w at htoken
  change m.key = Lexer.keyOf (.word w) at hm
  obtain ⟨p, hp, hreads⟩ := reads_builtinAfter hkey h
  simp only [htoken, hm, hp]
  refine Reads.next fun _ _ => Reads.skip hreads (Reads.skip (Reads.pure _ us) ?_)
  exact Reads.skip (reads_arrayBrackets _ (h.symbol_ne (by decide))) (Reads.pure _ us)

theorem reads_name (w : String) (us : List Token) : Reads Parser.ident [.word w] us ⟨w, none⟩ := by
  refine Reads.next fun m hm => ?_
  rw [hm.token]
  exact Reads.pure _ us

theorem reads_objectName (h : front us ≠ .symbol ".") : Reads objectName [.word w] us [⟨w, none⟩] :=
  (Many.one (reads_name w us) (reads_symbol?_of_ne h)).reads

theorem reads_custom {g : Grammar} (hw : Token.opensNoType (.word w) = true) (h : Ends us) :
    Reads (dataType g) [.word w] us (.custom [⟨w, none⟩] []) := by
  refine reads_dataType fun n => ?_
  have hcustom : Reads (do
      let name ← objectName
      let modifiers ← typeModifiers
      let type ← arrayBrackets (.custom name modifiers)
      return (type, false)) [.word w] us (DataType.custom [⟨w, none⟩] [], false) := by
    refine Reads.last (reads_objectName h.not_point) ?_
    refine Reads.skip (Reads.symbolElse (h.symbol_ne (by decide)) (Reads.pure _ us)) ?_
    exact Reads.skip (reads_arrayBrackets _ (h.symbol_ne (by decide))) (Reads.pure _ us)
  intro ls rest hls hrest
  rw [← hcustom ls rest hls hrest]
  obtain _ | ⟨hm, ⟨⟩⟩ := hls
  exact dataTypeFrom_word hm hw

theorem Parses.cast {type : DataType} (h : Parses d l r ts x) (hr : Strength.cast ≤ r)
    (htype : ∀ us, Ends us → Reads (dataType (.atDepth d)) ts' us type) :
    Parses d (min Strength.cast l) r' (ts ++ .symbol "::" :: ts') (.cast true x type) := by
  refine h.climb hr (fun us => rfl) (fun us => rfl) (List.cons_ne_nil _ _) (by decide) fun us hends
    _ => ?_
  refine Reads.get fun start => Reads.next fun m hm => ?_
  have hnone : Reads (binaryOp? m) [] (ts' ++ us) none := by
    rw [binaryOp?, hm.token]
    exact Reads.pure _ _
  refine Reads.skip hnone ?_
  simp only [hm.token]
  exact (htype us hends).map

end Parser
end SqlLayout.Sql
