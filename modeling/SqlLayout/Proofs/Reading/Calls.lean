import SqlLayout.Proofs.Reading.Clauses

/-!
Calls of functions, their windows and the values of the session.
-/

namespace SqlLayout.Sql
namespace Parser

variable {d l r : Nat} {x : Expr} {ts ts₁ ts₂ us : List Token} {w : String}

/-! ### Arguments -/

theorem fails_argOperator (hus : Follows [",", ")"] ["ORDER"] us) : Fails argOperator us := by
  refine Fails.skip (reads_word?_of_ne (hus.key_ne (by decide))) fun rest hrest => ?_
  refine ⟨"Expected: argument operator, found: " ++ (rest.headD .eof).found, rest.tail, ?_⟩
  have htoken : (rest.headD .eof).token = front us := hrest.front_token
  have hnext : next .anywhere rest = .ok (rest.headD .eof) rest.tail := rfl
  refine (bind_run hnext).trans ?_
  unfold Follows at hus
  rw [htoken]
  cases hfront : front us with
  | symbol s =>
    rw [hfront] at hus
    have hother : ∀ s ∈ [",", ")"], s ∉ ["=>", ":=", ":"] := by decide
    simp only [if_neg (hother s hus)]
    rfl
  | _ => rfl

theorem Item.reads_arg (h : Item d ts x) (hus : Follows [",", ")"] ["ORDER"] us) :
    Reads (arg (.atDepth (d + 1))) ts us x := by
  intro ls rest hls hrest
  have hstops : Stops us := hus.stops (by decide) (by decide)
  obtain ⟨paren, hlead⟩ := h.leads
  have hvalue : outcome (Grammar.atDepth (d + 1)).anyExpr .anywhere (ls ++ rest) = .ok (.ok x) rest :=
    (h.reads hstops).outcome ls rest hls hrest
  have hnamed : attempt (do
      let sign ← argOperator
      let v ← starOrExpr (.atDepth (d + 1))
      return x.print ++ " " ++ sign ++ " " ++ v.print) .anywhere rest = .ok none rest :=
    (Fails.attempt (fails_argOperator hus).bind) [] rest .nil hrest
  refine (bind_run (rfl : (get : Parser _) .anywhere _ = .ok (ls ++ rest) (ls ++ rest))).trans ?_
  refine (bind_run hvalue).trans
    ((bind_run (rfl : (get : Parser _) .anywhere rest = .ok rest rest)).trans ?_)
  exact (bind_run hnamed).trans (starOr_run (hlead.append hstops.1) (hls.append hrest))

theorem fails_star (n : Nat) : Fails (exprAbove (.atDepth d) n) (.symbol "*" :: us) := by
  have hoperand (fuel : Nat) : Fails (operand (.atDepth d) (fuel + 1)) (.symbol "*" :: us) := by
    refine Fails.skip (fails_typedConstant rfl).attempt fun rest hrest => ?_
    obtain _ | ⟨hl, hls⟩ := hrest
    rename_i l ls
    refine ⟨"Expected: an expression, found: " ++ l.found, ls, ?_⟩
    refine (bind_run (rfl : (get : Parser _) .anywhere _ = .ok (l :: ls) (l :: ls))).trans ?_
    refine (bind_run (rfl : next .anywhere _ = .ok l ls)).trans ?_
    rw [hl.token]
    rfl
  intro rest hrest
  obtain ⟨text, left, h⟩ := hoperand rest.length rest hrest
  have hremaining : remaining .anywhere rest = .ok rest.length rest := rfl
  exact ⟨text, left, (bind_run hremaining).trans (bind_error h)⟩

theorem reads_arg_star : Reads (arg (.atDepth (d + 1))) [.symbol "*"] us .star := by
  intro ls rest hls hrest
  obtain ⟨text, left, h⟩ := fails_star 0 (ls ++ rest) (hls.append hrest)
  have hstar := reads_star (p := raise ⟨.message text, left⟩) ls rest hls hrest
  refine (bind_run (rfl : (get : Parser _) .anywhere _ = .ok (ls ++ rest) (ls ++ rest))).trans ?_
  exact (bind_run (outcome_error h)).trans hstar

/-- The arguments of a call. -/
inductive Arguments (d : Nat) : List Token → List Expr → Prop
  | none : Arguments d [] []
  | star : Arguments d [.symbol "*"] [.star]
  | some {ts : List Token} {xs : List Expr} (h : Listed (Item d) ts xs) : Arguments d ts xs

/-- The tokens of a word that may be left out. -/
def wordTokens (w : String) (present : Bool) : List Token :=
  if present then [.word w] else []

/-- Tokens with no rule of a JSON function before them. -/
structure Plain (ts : List Token) : Prop where
  key : ∀ us, frontKey (ts ++ us) ∉ nonStarters
  close : ∀ us, front (ts ++ us) ≠ .symbol ")"
  null : ∀ us, Ends us → Reads (words? ["NULL", "ON", "NULL"]) [] (ts ++ us) false

theorem Leads.plain {paren : Bool} (h : Leads paren ts) : Plain ts where
  key us := h.key_not_mem
  close us := h.symbol_ne ⟨by decide, by decide, .inr (by decide)⟩
  null us hus := by
    have hlead := h.append hus
    generalize ts ++ us = vs at hlead
    cases hlead with
    | path ws hw hpoint hon =>
      refine reads_words?_of_ne_second ?_
      cases ws with
      | nil => exact hon
      | cons v ws => exact frontKey_ne (by decide)
    | mark ht hpoint =>
      refine reads_words?_of_ne ?_
      rename_i t more
      cases t with
      | word w => cases ht
      | _ => exact (by decide : "" ≠ "NULL")

theorem Item.plain (h : Item d ts x) : Plain ts := by
  obtain ⟨paren, hlead⟩ := h.leads
  exact hlead.plain

theorem Plain.append (h : Plain ts₁) (hends : ∀ us, Ends (ts₂ ++ us)) : Plain (ts₁ ++ ts₂) where
  key us := by
    rw [List.append_assoc]
    exact h.key _
  close us := by
    rw [List.append_assoc]
    exact h.close _
  null us _ := by
    rw [List.append_assoc]
    exact h.null _ (hends us)

theorem Listed.plain {xs : List Expr} (h : Listed (Item d) ts xs) : Plain ts := by
  cases h with
  | one h => exact h.plain
  | cons h hrest => exact h.plain.append fun us => rfl

theorem reads_jsonNulls_none (habsent : frontKey us ≠ "ABSENT")
    (hnull : Reads (words? ["NULL", "ON", "NULL"]) [] us false) : Reads jsonNulls [] us [] :=
  Reads.wordsElse habsent (Reads.skip hnull (Reads.pure _ us))

theorem reads_jsonReturning_none {g : Grammar} (h : frontKey us ≠ "RETURNING") :
    Reads (jsonReturning g) [] us [] :=
  Reads.skip (reads_afterWord_none h) (Reads.pure _ us)

/-- The closing parenthesis of a call, which no clause stands before. -/
theorem reads_argEnd {g : Grammar} {duplicates : Option String} {xs : List Expr}
    {items : List SortItem} : Reads (do
      let limit ← match ← afterWord "LIMIT" g.anyExpr with
        | some e => pure ["LIMIT " ++ e.print]
        | none => pure []
      let overflow ← onOverflow g
      let nulls ← jsonNulls
      let returning ← jsonReturning g
      symbol ")"
      return ArgList.mk duplicates xs [] items (limit ++ overflow ++ nulls ++ returning))
        [.symbol ")"] us
      ⟨duplicates, xs, [], items, []⟩ := by
  have hclose (k : String) (hk : k ≠ "") : frontKey ([.symbol ")"] ++ us) ≠ k := fun heq => hk heq.symm
  refine Reads.skip (reads_afterWord_none (hclose "LIMIT" (by decide))) (Reads.skip (Reads.pure _ _) ?_)
  refine Reads.skip (Reads.wordsElse (hclose "ON" (by decide)) (Reads.pure _ _)) ?_
  refine Reads.skip (reads_jsonNulls_none (hclose _ (by decide))
    (reads_words?_of_ne (hclose _ (by decide)))) ?_
  refine Reads.skip (reads_jsonReturning_none (hclose _ (by decide))) ?_
  exact Reads.last (reads_symbol ")" us) (Reads.pure _ us)

/-- The arguments that follow the word `DISTINCT`, if it stands before them. -/
theorem reads_argRest {xs : List Expr} {items : List SortItem} {distinct : Bool}
    (hargs : Many (symbol? ",") (arg (.atDepth (d + 1))) ts₁ (ts₂ ++ (.symbol ")" :: us)) xs)
    (hplain : Plain ts₁) (horder : Orders d ts₂ items) :
    Reads (argList (.atDepth (d + 1)))
      (wordTokens "DISTINCT" distinct ++ (ts₁ ++ (ts₂ ++ [.symbol ")"]))) us
      ⟨if distinct then some "DISTINCT" else none, xs, [], items, []⟩ := by
  have hends : Ends (ts₂ ++ .symbol ")" :: us) := by
    cases horder <;> rfl
  have hne (k : String) (hk : k ∈ nonStarters) : frontKey (ts₁ ++ (ts₂ ++ .symbol ")" :: us)) ≠ k := by
    rintro rfl
    exact hplain.key _ hk
  have hall : ts₁ ++ (ts₂ ++ [.symbol ")"]) ++ us = ts₁ ++ (ts₂ ++ .symbol ")" :: us) := by simp
  have hrest (duplicates : Option String) : Reads (do
      let args ← commaSeparated (arg (.atDepth (d + 1)))
      let order ← orderBy (.atDepth (d + 1))
      let limit ← match ← afterWord "LIMIT" (Grammar.atDepth (d + 1)).anyExpr with
        | some e => pure ["LIMIT " ++ e.print]
        | none => pure []
      let overflow ← onOverflow (.atDepth (d + 1))
      let nulls ← jsonNulls
      let returning ← jsonReturning (.atDepth (d + 1))
      symbol ")"
      return ArgList.mk duplicates args [] order (limit ++ overflow ++ nulls ++ returning))
      (ts₁ ++ (ts₂ ++ [.symbol ")"])) us ⟨duplicates, xs, [], items, []⟩ := by
    have hargs' : Reads (commaSeparated (arg (.atDepth (d + 1)))) ts₁ (ts₂ ++ [.symbol ")"] ++ us)
        xs := by
      rw [List.append_assoc]
      exact hargs.reads
    refine Reads.bind hargs' ?_
    exact Reads.bind (horder.reads (by decide : ")" ∈ [")", ";"])) reads_argEnd
  cases distinct with
  | false =>
    refine Reads.skip (reads_jsonNulls_none ?_ ?_) (Reads.skip (reads_jsonReturning_none ?_) ?_)
    · exact hall ▸ hne _ (by decide)
    · exact hall ▸ hplain.null _ hends
    · exact hall ▸ hne _ (by decide)
    refine Reads.symbolElse (hall ▸ hplain.close _) (Reads.skip (a := none) ?_ (hrest none))
    refine Reads.peek fun _ _ _ => Reads.skip (reads_word?_of_ne (hall ▸ hne _ (by decide))) ?_
    exact Reads.skip (reads_word?_of_ne (hall ▸ hne _ (by decide))) (Reads.pure _ _)
  | true =>
    have hkey (k : String) (hk : "DISTINCT" ≠ k) :
        frontKey (.word "DISTINCT" :: (ts₁ ++ (ts₂ ++ [.symbol ")"])) ++ us) ≠ k :=
      fun heq => hk heq
    refine Reads.skip (reads_jsonNulls_none (hkey _ (by decide))
      (reads_words?_of_ne (hkey _ (by decide)))) ?_
    refine Reads.skip (reads_jsonReturning_none (hkey _ (by decide))) ?_
    refine Reads.symbolElse (fun heq => by cases heq) (Reads.take (a := some "DISTINCT") ?_ (hrest _))
    refine Reads.peek fun _ _ _ => Reads.skip
      (reads_word?_of_ne (show Lexer.keyOf (.word "DISTINCT") ≠ "ALL" by decide)) ?_
    exact Reads.last (reads_word? rfl) (Reads.pure _ _)

/-- The tokens of a call between its parentheses, the closing one with them. -/
inductive Passes (d : Nat) : List Token → Option String → List Expr → List SortItem → Prop
  | none : Passes d [.symbol ")"] none [] []
  | star (distinct : Bool) {ts : List Token} {items : List SortItem} (horder : Orders d ts items) :
      Passes d (wordTokens "DISTINCT" distinct ++ (.symbol "*" :: (ts ++ [.symbol ")"])))
        (if distinct then some "DISTINCT" else none) [.star] items
  | some (distinct : Bool) {ts ts' : List Token} {xs : List Expr} {items : List SortItem}
      (h : Listed (Item d) ts xs) (horder : Orders d ts' items) :
      Passes d (wordTokens "DISTINCT" distinct ++ (ts ++ (ts' ++ [.symbol ")"])))
        (if distinct then some "DISTINCT" else none) xs items

theorem Orders.follows {items : List SortItem} (h : Orders d ts items) (us : List Token) :
    Follows [",", ")"] ["ORDER"] (ts ++ .symbol ")" :: us) := by
  cases h with
  | none => exact (by decide : ")" ∈ [",", ")"])
  | some h => exact (by decide : Lexer.keyOf (.word "ORDER") ∈ ["ORDER"])

theorem Orders.not_comma {items : List SortItem} (h : Orders d ts items) (us : List Token) :
    front (ts ++ .symbol ")" :: us) ≠ .symbol "," := by
  cases h with
  | none => exact fun heq => absurd (Token.symbol.inj heq) (by decide)
  | some h => exact fun heq => by cases heq

theorem plain_star : Plain [.symbol "*"] where
  key _ := (by decide : "" ∉ nonStarters)
  close _ := fun heq => absurd (Token.symbol.inj heq) (by decide)
  null _ _ := reads_words?_of_ne (show "" ≠ "NULL" by decide)

theorem Passes.reads {duplicates : Option String} {xs : List Expr} {items : List SortItem}
    (h : Passes d ts duplicates xs items) :
    Reads (argList (.atDepth (d + 1))) ts us ⟨duplicates, xs, [], items, []⟩ := by
  cases h with
  | none =>
    have hkey (k : String) (hk : "" ≠ k) : frontKey ([.symbol ")"] ++ us) ≠ k := hk
    refine Reads.skip (reads_jsonNulls_none (hkey _ (by decide))
      (reads_words?_of_ne (hkey _ (by decide)))) ?_
    refine Reads.skip (reads_jsonReturning_none (hkey _ (by decide))) ?_
    exact Reads.symbolThen (Reads.pure _ us)
  | star distinct horder =>
    have hargs := Many.one (reads_arg_star (d := d)) (reads_symbol?_of_ne (horder.not_comma us))
    exact reads_argRest hargs plain_star horder
  | some distinct h horder =>
    refine reads_argRest (h.many (by decide) (fun hitem hus => hitem.reads_arg hus) (horder.follows us)
      (horder.not_comma us)) h.plain horder

/-! ### The clauses after a call -/

/-- The tokens of the condition on the rows that a call takes. -/
inductive Filters (d : Nat) : List Token → Option Expr → Prop
  | none : Filters d [] none
  | some {ts : List Token} {x : Expr} (h : Item d ts x) :
      Filters d (.word "FILTER" :: .symbol "(" :: .word "WHERE" :: (ts ++ [.symbol ")"])) (some x)

/-- The words that may follow a call with its condition. -/
theorem Filters.reads {o : Option Expr} (h : Filters d ts o) (hus : frontKey us ≠ "FILTER") :
    Reads (callFilter (.atDepth (d + 1))) ts us o := by
  cases h with
  | none => exact Reads.wordElse hus (Reads.pure _ us)
  | some h =>
    refine Reads.wordThen rfl
      (Reads.symbolThen (Reads.wordThen rfl (Reads.bind (h.reads ⟨rfl, rfl⟩) ?_)))
    exact Reads.last (reads_symbol ")" us) (Reads.pure _ us)

/-- The tokens of the order of the rows that an ordered-set aggregate takes. -/
inductive Groupings (d : Nat) : List Token → List SortItem → Prop
  | none : Groupings d [] []
  | some {ts : List Token} {items : List SortItem} (h : Listed (SortsBy d) ts items) :
      Groupings d (.word "WITHIN" :: .word "GROUP" :: .symbol "(" :: .word "ORDER" :: .word "BY" ::
        (ts ++ [.symbol ")"])) items

theorem Listed.reads_sort {items : List SortItem} (h : Listed (SortsBy d) ts items) :
    Reads (sortItems (.atDepth (d + 1))) ts (.symbol ")" :: us) items := by
  have hclose : Follows [",", ")", ";"] afterOrder (.symbol ")" :: us) :=
    (by decide : ")" ∈ [",", ")", ";"])
  exact (h.many (by decide) (fun hitem hus => hitem.reads hus) hclose (close_ne_comma us)).reads

/-- The tokens of a window without a frame. -/
inductive Windows (d : Nat) : List Token → Window → Prop
  | none : Windows d [] .none
  | order {ts : List Token} {items : List SortItem} (h : Orders d ts items) :
      Windows d (.word "OVER" :: .symbol "(" :: (ts ++ [.symbol ")"])) (.spec [] items none)
  | partition {ts ts' : List Token} {xs : List Expr} {items : List SortItem}
      (hxs : Listed (Item d) ts xs) (h : Orders d ts' items) :
      Windows d (.word "OVER" :: .symbol "(" :: .word "PARTITION" :: .word "BY" ::
        (ts ++ (ts' ++ [.symbol ")"]))) (.spec xs items none)

/-- The words that a window without a name starts with are keywords. -/
theorem windowWords_keywords :
    keywords.contains "ORDER" = true ∧ keywords.contains "PARTITION" = true := by
  decide +kernel

theorem reads_windowBase (h : front us ∈ [.symbol ")", .word "ORDER", .word "PARTITION"]) :
    Reads windowBase [] us none := by
  refine Reads.peek fun l htoken hkey => ?_
  change l.token = front us at htoken
  change l.key = Lexer.keyOf (front us) at hkey
  rw [htoken]
  simp only [List.mem_cons, List.not_mem_nil, or_false] at h
  obtain hus | hus | hus := h <;> rw [hus] at hkey ⊢
  · exact Reads.pure _ us
  · simp only [show l.key = "ORDER" from hkey, windowWords_keywords.1]
    exact Reads.pure _ us
  · simp only [show l.key = "PARTITION" from hkey, windowWords_keywords.2]
    exact Reads.pure _ us

theorem Windows.reads {β : Type} {f : Window → Parser β} {b : β} {window : Window}
    {operand' : Parser Expr}
    (h : Windows d ts window) (hus : frontKey us ≠ "OVER") (hf : Reads (f window) [] us b) :
    Reads (do
      let window ← if ← word? "OVER" then
          if ← symbol? "(" then windowSpec (.atDepth (d + 1)) operand'
          else do pure (Window.named (← ident).print)
        else pure .none
      f window) ts us b := by
  cases h with
  | none => exact Reads.wordElse hus (Reads.skip (Reads.pure _ _) hf)
  | @order ts items horder =>
    have hfront : front (ts ++ [.symbol ")"] ++ us) = .symbol ")" ∨
        front (ts ++ [.symbol ")"] ++ us) = .word "ORDER" := by
      cases horder with
      | none => exact .inl rfl
      | some h => exact .inr rfl
    have hbase : front (ts ++ [.symbol ")"] ++ us) ∈
        [.symbol ")", .word "ORDER", .word "PARTITION"] := by
      obtain h | h := hfront <;> rw [h]
      · exact List.mem_cons_self
      · exact List.mem_cons_of_mem _ List.mem_cons_self
    have hpartition : frontKey (ts ++ [.symbol ")"] ++ us) ≠ "PARTITION" := by
      rw [frontKey]
      obtain h | h := hfront <;> rw [h] <;> decide
    refine Reads.wordThen rfl (Reads.symbolThen (Reads.last ?_ hf))
    refine Reads.skip (reads_windowBase hbase) ?_
    refine Reads.wordsElse hpartition
      (Reads.skip (Reads.pure _ _) (Reads.bind (horder.reads (by decide : ")" ∈ [")", ";"])) ?_))
    exact Reads.symbolThen (Reads.skip (Reads.pure _ us) (Reads.pure _ us))
  | @partition ts ts' xs items hxs horder =>
    refine Reads.wordThen rfl (Reads.symbolThen (Reads.last ?_ hf))
    refine Reads.skip (reads_windowBase
      (List.mem_cons_of_mem _ (List.mem_cons_of_mem _ List.mem_cons_self))) ?_
    have hclose : Follows [")", ";"] closers (ts' ++ [.symbol ")"] ++ us) := by
      cases horder with
      | none => exact (by decide : ")" ∈ [")", ";"])
      | some h => exact (by decide : Lexer.keyOf (.word "ORDER") ∈ closers)
    refine Reads.wordsThen [.word "PARTITION", .word "BY"] rfl
      (Reads.bind (hxs.exprs (by decide) (List.Subset.refl _) hclose) ?_)
    refine Reads.bind (horder.reads (by decide : ")" ∈ [")", ";"])) ?_
    exact Reads.symbolThen (Reads.skip (Reads.pure _ us) (Reads.pure _ us))

/-! ### Calls -/

theorem Windows.key_ne {window : Window} {k : String} (h : Windows d ts window) (hus : frontKey us ≠ k)
    (hk : Lexer.keyOf (.word "OVER") ≠ k) : frontKey (ts ++ us) ≠ k := by
  cases h with
  | none => exact hus
  | order => exact hk
  | partition => exact hk

theorem Filters.key_ne {o : Option Expr} {k : String} (h : Filters d ts o) (hus : frontKey us ≠ k)
    (hk : Lexer.keyOf (.word "FILTER") ≠ k) : frontKey (ts ++ us) ≠ k := by
  cases h with
  | none => exact hus
  | some => exact hk

theorem reads_call {operand' : Parser Expr} {duplicates : Option String} {xs : List Expr}
    {items group : List SortItem} {filter : Option Expr} {window : Window} {ts₃ ts₄ : List Token}
    (hargs : Passes d ts₁ duplicates xs items) (hgroup : Groupings d ts₂ group)
    (hfilter : Filters d ts₃ filter) (hwindow : Windows d ts₄ window) (hus : Ends us) :
    Reads (call (.atDepth (d + 1)) operand' false [⟨w, none⟩])
      (.symbol "(" :: (ts₁ ++ (ts₂ ++ (ts₃ ++ ts₄)))) us
      (.call [⟨w, none⟩] false duplicates xs [] items [] group filter none window) := by
  have hafter : Reads (do
      let filter ← callFilter (.atDepth (d + 1))
      let nulls ← nullTreatment
      let window ← if ← word? "OVER" then
          if ← symbol? "(" then windowSpec (.atDepth (d + 1)) operand'
          else do pure (Window.named (← ident).print)
        else pure .none
      return Expr.call [⟨w, none⟩] false duplicates xs [] items [] group filter nulls window)
        (ts₃ ++ ts₄) us
      (Expr.call [⟨w, none⟩] false duplicates xs [] items [] group filter none window) := by
    have hnulls : frontKey (ts₄ ++ us) ∉ ["RESPECT", "IGNORE"] := by
      simp only [List.mem_cons, List.not_mem_nil, or_false, not_or]
      exact ⟨hwindow.key_ne (hus.key_ne (by decide)) (by decide),
        hwindow.key_ne (hus.key_ne (by decide)) (by decide)⟩
    refine Reads.bind (hfilter.reads (hwindow.key_ne (hus.key_ne (by decide)) (by decide))) ?_
    refine Reads.skip (Reads.skip (reads_oneOf?_of_not_mem hnulls) (Reads.pure none _)) ?_
    exact hwindow.reads (hus.key_ne (by decide)) (Reads.pure _ us)
  have hwithin : frontKey ((ts₃ ++ ts₄) ++ us) ≠ "WITHIN" := by
    rw [List.append_assoc]
    exact hfilter.key_ne (hwindow.key_ne (hus.key_ne (by decide)) (by decide)) (by decide)
  refine Reads.take (reads_symbol "(" _) (Reads.bind hargs.reads ?_)
  cases hgroup with
  | none => exact Reads.wordsElse hwithin (Reads.skip (Reads.pure _ _) hafter)
  | @some ts items h =>
    have hsort : Reads (do
        words ["ORDER", "BY"]
        sortItems (.atDepth (d + 1))) (.word "ORDER" :: .word "BY" :: ts)
          (.symbol ")" :: ((ts₃ ++ ts₄) ++ us)) group := by
      have hwords (us : List Token) : Reads (words ["ORDER", "BY"]) [.word "ORDER", .word "BY"] us () :=
        Reads.take (reads_word rfl) (Reads.take (reads_word rfl) (Reads.pure () us))
      exact (hwords _).bind h.reads_sort
    exact Reads.wordsThen [.word "WITHIN", .word "GROUP"] rfl (Reads.bind (reads_parens hsort) hafter)

theorem Parses.call {duplicates : Option String} {xs : List Expr}
    {items group : List SortItem} {filter : Option Expr} {window : Window} {ts₃ ts₄ : List Token}
    (hw : isBare w = true) (hargs : Passes d ts₁ duplicates xs items) (hgroup : Groupings d ts₂ group)
    (hfilter : Filters d ts₃ filter) (hwindow : Windows d ts₄ window) :
    Parses (d + 1) l r (.word w :: .symbol "(" :: (ts₁ ++ (ts₂ ++ (ts₃ ++ ts₄))))
      (.call [⟨w, none⟩] false duplicates xs [] items [] group filter none window) := by
  simp only [isBare, Bool.and_eq_true, Bool.not_eq_true', List.contains_eq_mem,
    decide_eq_false_iff_not] at hw
  refine Parses.of_operand fun us hends _ fuel => ?_
  refine reads_operand_word hw.1 (reads_wordOperand_plain hw.2 ?_) hends.key_ne_collate
  refine Reads.peek fun m hm _ => ?_
  change m.token = .symbol "(" at hm
  rw [hm]
  exact reads_call hargs hgroup hfilter hwindow hends

/-! ### Values of the session -/

theorem Parses.session (hw : w ∈ sessionWords) : Parses d l r [.word w] (.bareCall [⟨w, none⟩]) := by
  have hfacts : ∀ w ∈ sessionWords, Token.opensNoType (.word w) = true ∧
      Lexer.keyOf (.word w) ∈ sessionWords ∧
      Lexer.keyOf (.word w) ≠ "POSITION" ∧ Lexer.keyOf (.word w) ≠ "ARRAY" := by decide
  obtain ⟨hopens, hkey, hposition, harray⟩ := hfacts w hw
  refine Parses.phrase hopens (fun operand' after => ?_) fun us _ _ => Reads.pure _ us
  simp only [phraseBefore, phraseOf, beq_eq_false_iff_ne.2 hposition, beq_eq_false_iff_ne.2 harray,
    Bool.false_and, Bool.false_eq_true, if_false, List.contains_iff_mem.2 hkey, if_true]

theorem Parses.time (hw : w ∈ timeWords) : Parses d l r [.word w] (.bareCall [⟨w, none⟩]) := by
  have hfacts : ∀ w ∈ timeWords, Token.opensNoType (.word w) = true ∧ Lexer.keyOf (.word w) ∈ timeWords ∧
      sessionWords.contains (Lexer.keyOf (.word w)) = false ∧ Lexer.keyOf (.word w) ≠ "POSITION" ∧
      Lexer.keyOf (.word w) ≠ "ARRAY" := by decide
  obtain ⟨hopens, hkey, hsession, hposition, harray⟩ := hfacts w hw
  have hphrase (operand' : Parser Expr) (after : Token) :
      phraseBefore (.atDepth d) operand' ⟨w, none⟩ (Lexer.keyOf (.word w)) after = some do
        if ← symbol? "(" then
          let list ← argList (.atDepth d)
          return .call [⟨w, none⟩] false list.duplicates list.args list.before list.orderBy
            list.clauses [] none none .none
        else return .bareCall [⟨w, none⟩] := by
    simp only [phraseBefore, phraseOf, beq_eq_false_iff_ne.2 hposition,
      beq_eq_false_iff_ne.2 harray, Bool.false_and,
      Bool.false_eq_true, if_false, hsession, List.contains_iff_mem.2 hkey, if_true]
  refine Parses.phrase hopens hphrase fun us hends _ => ?_
  exact Reads.symbolElse (hends.symbol_ne (by decide)) (Reads.pure _ us)

end Parser
end SqlLayout.Sql
