import SqlLayout.Proofs.Reading.Basic

/-!
Operands of expressions. No constant of a type starts with a word that starts no type, so such a word is
a name, or it opens a phrase of its own.
-/

namespace SqlLayout.Sql
namespace Parser

variable {α : Type} {ts us : List Token}

/-- A token that starts no type. -/
def Token.opensNoType (t : Token) : Bool :=
  match t with
  | .word _ =>
    (builtinAfter (Lexer.keyOf t)).isNone && !(["ARRAY", "TABLE", "ANY"].contains (Lexer.keyOf t))
  | .delimited _ => false
  | _ => true

theorem reads_arrayBrackets (type : DataType) (h : front us ≠ .symbol "[") :
    Reads (arrayBrackets type) [] us type :=
  Turns.reads (Turns.done (Reads.symbolElse h (Reads.pure _ us)))

/-- What starts no built-in type is read as a type of the user's own. -/
theorem dataTypeFrom_word {g : Grammar} {n : Nat} {l : Lexeme} {ls : List Lexeme} {w : String}
    (hl : l.Is (.word w)) (h : Token.opensNoType (.word w) = true) :
    dataTypeFrom g (n + 1) .anywhere (l :: ls) = (do
      let name ← objectName
      let modifiers ← typeModifiers
      let type ← arrayBrackets (.custom name modifiers)
      return (type, false) : Parser (DataType × Bool)) .anywhere (l :: ls) := by
  simp only [Token.opensNoType, Bool.and_eq_true, Option.isNone_iff_eq_none, Bool.not_eq_true',
    List.contains_eq_mem, decide_eq_false_iff_not, List.mem_cons, List.not_mem_nil, or_false, not_or,
    ← hl.key] at h
  obtain ⟨hbuiltin, harray, htable, hany⟩ := h
  rw [dataTypeFrom]
  refine (bind_run (rfl : peek .anywhere (l :: ls) = .ok l (l :: ls))).trans ?_
  simp only [List.headD_cons, hl.token, hbuiltin]
  rfl

theorem custom_or_error {g : Grammar} {n : Nat} {l : Lexeme} {ls : List Lexeme} {w : String}
    (hl : l.Is (.word w)) (h : Token.opensNoType (.word w) = true) (hls : Spells (l :: ls) ts) :
    (∃ text left, dataTypeFrom g (n + 1) .anywhere (l :: ls) = .error (.message text) left) ∨
      ∃ name modifiers left,
        dataTypeFrom g (n + 1) .anywhere (l :: ls) = .ok (.custom name modifiers, false) left := by
  rw [dataTypeFrom_word hl h]
  cases hname : objectName .anywhere (l :: ls) with
  | error e left =>
    obtain ⟨text, rfl⟩ := Tame.mild hname
    exact .inl ⟨text, left, bind_error hname⟩
  | ok name left =>
    cases hmodifiers : typeModifiers .anywhere left with
    | error e left' =>
      obtain ⟨text, rfl⟩ := Tame.mild hmodifiers
      exact .inl ⟨text, left', (bind_run hname).trans (bind_error hmodifiers)⟩
    | ok modifiers left' =>
      have hsuffix := (Tame.suffix hmodifiers).trans (Tame.suffix hname)
      obtain ⟨us, hus⟩ := hls.suffix hsuffix
      have hbrackets := reads_arrayBrackets (.custom name modifiers) hus.front_ne [] left' .nil hus
      exact .inr ⟨name, modifiers, left', (bind_run hname).trans
        ((bind_run hmodifiers).trans (bind_run hbrackets))⟩

/-- No constant starts with what starts no type. -/
theorem fails_typedConstant {g : Grammar} {operand : Parser Expr} {t : Token}
    (h : Token.opensNoType t = true) : Fails (typedConstant g operand) (t :: us) := by
  intro rest hrest
  obtain _ | ⟨hl, hls⟩ := hrest
  rename_i l ls
  have hword : (∃ w, t = .word w) ∨ ∀ w, t ≠ .word w := by
    cases t <;> simp
  have htype : (∃ text left, dataType g .anywhere (l :: ls) = .error (.message text) left) ∨
      ∃ name modifiers left, dataType g .anywhere (l :: ls) = .ok (.custom name modifiers) left := by
    have hdataType : dataType g .anywhere (l :: ls) =
        unmatchedOr (dataTypeFrom g (ls.length + 2)) .anywhere (l :: ls) := rfl
    rw [hdataType]
    obtain ⟨w, rfl⟩ | hword := hword
    · obtain ⟨text, left, hrun⟩ | ⟨name, modifiers, left, hrun⟩ :=
        custom_or_error hl h (.cons hl hls)
      · exact .inl ⟨text, left, bind_error hrun⟩
      · exact .inr ⟨name, modifiers, left, bind_run hrun⟩
    · left
      refine ⟨"Expected: a data type name, found: " ++ l.found, ls, bind_error ?_⟩
      rw [dataTypeFrom]
      refine (bind_run (rfl : peek .anywhere (l :: ls) = .ok l (l :: ls))).trans ?_
      simp only [List.headD_cons, hl.token]
      cases t with
      | word w => exact absurd rfl (hword w)
      | delimited s => cases h
      | _ => rfl
  obtain ⟨text, left, hrun⟩ | ⟨name, modifiers, left, hrun⟩ := htype
  · exact ⟨text, left, bind_error hrun⟩
  · exact ⟨_, left, bind_run hrun⟩

/-! ### What follows an expression -/

/-- The words that may follow an expression. -/
def enders : List String :=
  ["AND", "OR", "IS", "IN", "NOT", "BETWEEN", "LIKE", "ILIKE", "AS", "WHEN", "THEN", "ELSE", "END",
    "FROM", "WHERE", "GROUP", "HAVING", "ORDER", "LIMIT", "OFFSET", "ASC", "DESC", "NULLS", "UNION",
    "INTERSECT", "EXCEPT", "JOIN", "INNER", "LEFT", "RIGHT", "FULL", "CROSS", "NATURAL", "FOR"]

/-- The symbols that may follow an expression. -/
def endSymbols : List String :=
  [")", ",", ";", "::"] ++ Lexer.writtenSigns.map (·.2.2)

/-- A token that may follow an expression. -/
def ends (t : Token) : Bool :=
  match t with
  | .eof => true
  | .word _ => enders.contains (Lexer.keyOf t)
  | .symbol s => endSymbols.contains s
  | _ => false

/-- Tokens that may follow an expression. -/
def Ends (us : List Token) : Prop :=
  ends (front us) = true

theorem Ends.key_ne {k : String} (h : Ends us) (hk : k ∉ "" :: enders) : frontKey us ≠ k := by
  rintro rfl
  unfold Ends ends at h
  unfold frontKey at hk
  split at h
  · rename_i heq
    rw [heq] at hk
    exact hk List.mem_cons_self
  · rename_i w heq
    rw [heq] at h hk
    exact hk (List.mem_cons_of_mem _ (List.contains_iff_mem.1 h))
  · rename_i heq
    rw [heq] at hk
    exact hk List.mem_cons_self
  · cases h

theorem Ends.not_mem {ks : List String} (h : Ends us) (hks : ∀ k ∈ ks, k ∉ "" :: enders) :
    frontKey us ∉ ks :=
  fun hmem => h.key_ne (hks _ hmem) rfl

theorem Ends.symbol_ne {s : String} (h : Ends us) (hs : s ∉ endSymbols) : front us ≠ .symbol s := by
  intro heq
  rw [Ends, heq] at h
  exact hs (List.contains_iff_mem.1 h)

theorem reads_collated {e : Expr} (h : frontKey us ≠ "COLLATE") : Reads (collated e) [] us e :=
  Reads.read (Reads.skip (reads_afterWord_none h) (Reads.pure e us))

theorem Ends.key_ne_collate (h : Ends us) : frontKey us ≠ "COLLATE" :=
  h.key_ne (by decide)

theorem reads_accesses {g : Grammar} {e : Expr} (h : Ends us) : Reads (accesses g e) [] us e := by
  refine (Turns.done ?_).reads
  refine Reads.symbolElse (h.symbol_ne (by decide)) ?_
  refine Reads.symbolElse (h.symbol_ne (by decide)) ?_
  exact Reads.pure _ us

/-! ### Strengths -/

/-- The strength of the operator that the tokens start with; zero when they start with none. -/
def strengthOf (us : List Token) : Nat :=
  match front us with
  | .word _ => wordStrength .anywhere (frontKey us) (frontKey (us.drop 1)) (frontKey (us.drop 2))
  | .symbol s => symbolStrength s
  | .operator _ => Strength.other
  | _ => 0

theorem reads_nextStrength (us : List Token) : Reads nextStrength [] us (strengthOf us) := by
  refine Reads.peek fun l htoken hkey => ?_
  rw [List.nil_append] at htoken hkey
  rw [strengthOf, htoken]
  cases hfront : front us with
  | word w =>
    refine Reads.read (Reads.peekAt fun m _ hm => Reads.peekAt fun n _ hn => ?_)
    rw [hkey, hm, hn]
    exact Reads.pure _ us
  | _ => exact Reads.pure _ us

/-- Operators with their right sides are taken after an operand, as long as they bind more tightly
than `n`. -/
def Climbs (g : Grammar) (n : Nat) (x : Expr) (ts us : List Token) (y : Expr) : Prop :=
  Turns (fun e => do
    let s ← nextStrength
    if s ≤ n || s == Strength.period then return .inr e
    else return .inl (← afterOperand g s e)) x ts us y

theorem Climbs.stop {g : Grammar} {n : Nat} {x : Expr} (h : strengthOf us ≤ n) :
    Climbs g n x [] us x := by
  refine Turns.done (Reads.skip (reads_nextStrength us) ?_)
  rw [if_pos (by simp [h])]
  exact Reads.pure _ us

theorem Climbs.step {g : Grammar} {n s : Nat} {x x' y : Expr} {ts₁ ts₂ : List Token}
    (hs : strengthOf (ts₁ ++ (ts₂ ++ us)) = s) (hn : n < s) (hperiod : s ≠ Strength.period)
    (hafter : Reads (afterOperand g s x) ts₁ (ts₂ ++ us) x') (hne : ts₁ ≠ [])
    (hrest : Climbs g n x' ts₂ us y) : Climbs g n x (ts₁ ++ ts₂) us y := by
  refine Turns.turn _ (Reads.skip (reads_nextStrength _) ?_) hne hrest
  rw [hs, if_neg (by simp [hn, hperiod])]
  exact hafter.map

theorem reads_exprAbove {g : Grammar} {n : Nat} {x x' y : Expr} {ts₁ ts₂ ts₃ : List Token}
    (hoperand : ∀ fuel, Reads (operand g (fuel + 1)) ts₁ (ts₂ ++ (ts₃ ++ us)) x)
    (haccesses : Reads (accesses g x) ts₂ (ts₃ ++ us) x') (hclimbs : Climbs g n x' ts₃ us y) :
    Reads (exprAbove g n) (ts₁ ++ (ts₂ ++ ts₃)) us y := by
  refine Reads.remaining fun _ => Reads.bind ?_ (Reads.bind haccesses hclimbs.reads)
  rw [List.append_assoc]
  exact hoperand _

/-- The tokens are the expression in every place where operators bind less tightly than `l` before it
and at most as tightly as `r` after it. -/
def Parses (d l r : Nat) (ts : List Token) (x : Expr) : Prop :=
  ∀ n < l, ∀ more us y, Ends (more ++ us) → strengthOf (more ++ us) ≤ r →
    Climbs (.atDepth d) n x more us y → Reads (exprAbove (.atDepth d) n) (ts ++ more) us y

theorem Parses.reads {d l r n : Nat} {x : Expr} (h : Parses d l r ts x) (hn : n < l) (hends : Ends us)
    (hr : strengthOf us ≤ r) (hstop : strengthOf us ≤ n) :
      Reads ((Grammar.atDepth (d + 1)).expr n) ts us x := by
  have hreads := h n hn [] us x hends hr (Climbs.stop hstop)
  rwa [List.append_nil] at hreads

/-! ### Operands -/

/-- The words that open a phrase of their own. -/
def phraseWords : List String :=
  sessionWords ++ timeWords ++
    ["TRUE", "FALSE", "NULL", "CASE", "CONVERT", "CAST", "TRY_CAST", "SAFE_CAST", "EXISTS", "EXTRACT",
      "CEIL", "FLOOR", "SUBSTR", "SUBSTRING", "OVERLAY", "TRIM", "INTERVAL", "NOT", "CIRCLE", "BOX",
      "PATH", "LINE", "LSEG", "POINT", "POLYGON", "POSITION", "ARRAY"]

theorem phraseBefore_none (g : Grammar) (operand : Parser Expr) (name : Ident) {key : String}
    (after : Token) (h : key ∉ phraseWords) : phraseBefore g operand name key after = none := by
  have hposition : key ≠ "POSITION" := fun heq => h (by rw [heq]; decide)
  have harray : key ≠ "ARRAY" := fun heq => h (by rw [heq]; decide)
  have hsession : sessionWords.contains key = false := by
    simp only [phraseWords, List.mem_append, not_or] at h
    simpa using h.1.1
  have htime : timeWords.contains key = false := by
    simp only [phraseWords, List.mem_append, not_or] at h
    simpa using h.1.2
  simp only [phraseBefore, phraseOf, hsession, htime, beq_eq_false_iff_ne.2 hposition,
    beq_eq_false_iff_ne.2 harray, Bool.false_and, Bool.false_eq_true, if_false]
  split <;> first | rfl | exact absurd (by decide) h

variable {g : Grammar} {operand' : Parser Expr} {e : Expr}

theorem reads_wordOperand_plain {name : Ident} {key : String} (h : key ∉ phraseWords)
    (hplain : Reads (plainWord g operand' name) ts us e) :
    Reads (wordOperand g operand' name key) ts us (e, true) := by
  refine Reads.peek fun l _ _ => ?_
  rw [phraseBefore_none g operand' name l.token h]
  exact hplain.map

theorem reads_wordOperand_phrase {name : Ident} {key : String} {p : Parser Expr}
    (h : phraseBefore g operand' name key (front (ts ++ us)) = some p) (hp : Reads p ts us e) :
    Reads (wordOperand g operand' name key) ts us (e, true) := by
  refine Reads.peek fun l htoken _ => ?_
  rw [htoken, h]
  exact Reads.last hp.outcome (Reads.pure _ us)

theorem reads_operand_word {fuel : Nat} {w : String} (h : Token.opensNoType (.word w) = true)
    (hword : Reads (wordOperand g (operand g fuel) ⟨w, none⟩ (Lexer.keyOf (.word w))) ts us (e, true))
    (hcollate : frontKey us ≠ "COLLATE") : Reads (operand g (fuel + 1)) (.word w :: ts) us e := by
  refine Reads.skip (fails_typedConstant h).attempt (Reads.get fun start => Reads.next fun l hl => ?_)
  simp only [hl.token, hl.key]
  exact Reads.last hword (reads_collated hcollate)

theorem reads_operand_symbol {fuel : Nat} {s : String} (hcolon : s ≠ ":")
    (hsymbol : ∀ l, Reads (symbolOperand g (operand g fuel) l s) ts us e) (hends : Ends us) :
    Reads (operand g (fuel + 1)) (.symbol s :: ts) us e := by
  refine Reads.skip (fails_typedConstant rfl).attempt (Reads.get fun start => Reads.next fun l hl => ?_)
  simp only [hl.token]
  exact Reads.last (hsymbol l) (reads_collated hends.key_ne_collate)

/-- The tokens that are constants. -/
def isConstant : Token → Bool
  | .number _ _ | .quoted _ _ | .placeholder _ => true
  | _ => false

theorem reads_operand_constant {fuel : Nat} {t : Token} {v : Value} (ht : isConstant t = true)
    (hvalue : Reads value [t] us v) (hends : Ends us) :
    Reads (operand g (fuel + 1)) [t] us (.value v) := by
  have hopens : Token.opensNoType t = true := by
    cases t <;> first | rfl | cases ht
  refine Reads.skip (fails_typedConstant hopens).attempt ?_
  intro ls rest hls hrest
  have hconstant : operand.constant (ls ++ rest) .anywhere rest = .ok (.value v) rest :=
    Reads.last hvalue (reads_collated hends.key_ne_collate) ls rest hls hrest
  obtain _ | ⟨hl, ⟨⟩⟩ := hls
  rw [← hconstant]
  refine (bind_run (rfl : (get : Parser _) .anywhere _ = _)).trans ?_
  refine (bind_run (rfl : next .anywhere _ = _)).trans ?_
  simp only [List.singleton_append, List.headD_cons, List.tail_cons, hl.token]
  cases t <;> first | rfl | cases ht

/-- An operand that is read whatever stands before it, with any operator after it. -/
theorem Parses.of_operand {d l r : Nat} {x : Expr}
    (h : ∀ us, Ends us → strengthOf us ≤ r → ∀ fuel, Reads (operand (.atDepth d) (fuel + 1)) ts us x) :
    Parses d l r ts x :=
  fun _ _ more us _ hends hr hclimbs =>
    reads_exprAbove (h (more ++ us) hends hr) (reads_accesses hends) hclimbs

variable {d l r : Nat} {x : Expr} {w : String}

/-- A word that is a name wherever an expression may stand. -/
def isBare (w : String) : Bool :=
  Token.opensNoType (.word w) && !phraseWords.contains (Lexer.keyOf (.word w))

theorem reads_plainWord {name : Ident} (h : ∀ s, front us = .symbol s → s ≠ "(")
    (hquoted : ∀ q s, front us ≠ .quoted q s) :
      Reads (plainWord g operand' name) [] us (.ident name) := by
  refine Reads.peek fun l htoken _ => ?_
  rw [htoken]
  simp only [List.nil_append]
  split
  · rename_i heq
    exact absurd rfl (h _ heq)
  · rename_i heq
    exact absurd heq (hquoted _ _)
  · rename_i heq
    exact absurd heq (hquoted _ _)
  · exact Reads.pure _ us

theorem Ends.front_ne_quoted (h : Ends us) (q : Quoting) (s : String) : front us ≠ .quoted q s := by
  intro heq
  rw [Ends, heq] at h
  cases h

/-- What a bare word takes for a name. -/
theorem reads_operand_name {fuel : Nat} (hw : isBare w = true) (hparen : front us ≠ .symbol "(")
    (hquoted : ∀ q s, front us ≠ .quoted q s) (hcollate : frontKey us ≠ "COLLATE") :
    Reads (operand g (fuel + 1)) [.word w] us (.ident ⟨w, none⟩) := by
  simp only [isBare, Bool.and_eq_true, Bool.not_eq_true', List.contains_eq_mem,
    decide_eq_false_iff_not] at hw
  refine reads_operand_word hw.1 (reads_wordOperand_plain hw.2 (reads_plainWord ?_ hquoted)) hcollate
  rintro s hs rfl
  exact hparen hs

/-! ### Paths -/

/-- Names that are not quoted. -/
abbrev bare (ws : List String) : List Ident :=
  ws.map fun w => ⟨w, none⟩

/-- The tokens of names with a point before each of them. -/
abbrev points (ws : List String) : List Token :=
  ws.flatMap fun w => [.symbol ".", .word w]

/-- A path of names. -/
abbrev dotted (w : String) (ws : List String) : List Token :=
  .word w :: points ws

/-- The expression that a path of names is. -/
def pathOf (w : String) : List String → Expr
  | [] => .ident ⟨w, none⟩
  | v :: ws => .path (bare (w :: v :: ws))

theorem accessOf_pathOf (w : String) (ws : List String) :
    accessOf (pathOf w ws) = (bare (w :: ws)).map fun n => .dot (.ident n) := by
  cases ws <;> rfl

theorem chain_names (w v : String) (ws : List String) :
    chain (.ident ⟨w, none⟩) ((bare (v :: ws)).map fun n => .dot (.ident n)) = pathOf w (v :: ws) := by
  have hnames (l : List Ident) : (l.map fun n => Access.dot (.ident n)).mapM Access.ident? = some l := by
    induction l with
    | nil => rfl
    | cons n l ih => simp [Access.ident?, ih]
  have hchain : chainNames? (.ident ⟨w, none⟩) ((bare (v :: ws)).map fun n => .dot (.ident n)) =
      some (bare (w :: v :: ws)) := by
    rw [chainNames?, hnames]
    rfl
  unfold chain
  rw [hchain]
  split
  · rename_i hlast
    simp at hlast
  · rfl

theorem strengthOf_le (us : List Token) : strengthOf us ≤ Strength.period := by
  have hword (k k' k'' : String) : wordStrength .anywhere k k' k'' ≤ Strength.period := by
    unfold wordStrength
    repeat' split
    all_goals decide
  have hsymbol (s : String) : symbolStrength s ≤ Strength.period := by
    unfold symbolStrength
    repeat' split
    all_goals decide
  unfold strengthOf
  split
  · exact hword _ _ _
  · exact hsymbol _
  · decide
  · decide

/-- The first name of a path, with the other ones behind it. -/
theorem reads_operand_path {fuel : Nat} (ws : List String) (hw : isBare w = true) (hends : Ends us) :
    Reads (operand g (fuel + 1)) [.word w] (points ws ++ us) (.ident ⟨w, none⟩) := by
  cases ws with
  | nil =>
    exact reads_operand_name hw (hends.symbol_ne (by decide)) hends.front_ne_quoted hends.key_ne_collate
  | cons v ws =>
    have hpoint : front (points (v :: ws) ++ us) = .symbol "." := rfl
    refine reads_operand_name hw ?_ (fun q s => ?_) (frontKey_ne (by decide))
    · rw [hpoint]
      decide
    · rw [hpoint]
      exact Token.noConfusion

/-- Names after points are read one inside the other. -/
theorem reads_points {d : Nat} {ws : List String} (hws : ∀ v ∈ ws, isBare v) (hd : ws.length ≤ d)
    (hends : Ends us) : Reads (accesses (.atDepth d) (.ident ⟨w, none⟩)) (points ws) us
      (pathOf w ws) := by
  induction ws generalizing w d with
  | nil => exact reads_accesses hends
  | cons v ws ih =>
    obtain ⟨d, rfl⟩ : ∃ e, d = e + 1 := ⟨d - 1, by simp only [List.length_cons] at hd; omega⟩
    have hv := hws v List.mem_cons_self
    have hrest := ih (w := v) (fun x hx => hws x (List.mem_cons_of_mem v hx)) (Nat.le_of_succ_le_succ hd)
    have hname : Reads ((Grammar.atDepth (d + 1)).expr Strength.period) (dotted v ws) us
        (pathOf v ws) := by
      have hstop : Climbs (.atDepth d) Strength.period (pathOf v ws) [] us (pathOf v ws) :=
        Climbs.stop (strengthOf_le us)
      have hfirst (n : Nat) :
          Reads (operand (.atDepth d) (n + 1)) [.word v] (points ws ++ us) (.ident ⟨v, none⟩) :=
        reads_operand_path ws hv hends
      have habove := reads_exprAbove hfirst hrest hstop
      rwa [List.append_nil] at habove
    have hafter : Reads (afterPoint (.atDepth (d + 1))) (dotted v ws) us
        ((bare (v :: ws)).map fun n => .dot (.ident n)) := by
      refine Reads.peek fun l hl _ => ?_
      change l.token = .word v at hl
      rw [hl, ← accessOf_pathOf]
      exact hname.map
    have hpoint : front (dotted v ws ++ us) ≠ .symbol "*" := fun heq => by cases heq
    refine Turns.reads (Turns.last (Reads.symbolThen (Reads.symbolElse hpoint hafter.map))
      (List.cons_ne_nil _ _) ?_)
    refine Turns.done (Reads.symbolElse (hends.symbol_ne (by decide)) ?_)
    refine Reads.symbolElse (hends.symbol_ne (by decide)) ?_
    rw [List.nil_append, chain_names]
    exact Reads.pure _ us

theorem Parses.path {ws : List String} (hw : isBare w = true) (hws : ∀ v ∈ ws, isBare v)
    (hd : ws.length ≤ d) : Parses d l r (dotted w ws) (pathOf w ws) := by
  intro n _ more us y hends _ hclimbs
  exact reads_exprAbove (fun _ => reads_operand_path ws hw hends) (reads_points hws hd hends) hclimbs

theorem Parses.name (hw : isBare w = true) : Parses d l r [.word w] (.ident ⟨w, none⟩) := by
  have hpath : Parses d l r (dotted w []) (pathOf w []) :=
    Parses.path hw (List.forall_mem_nil _) (Nat.zero_le d)
  exact hpath

theorem Parses.number (digits : String) : Parses d l r [.number digits false]
    (.value (.number digits false)) :=
  Parses.of_operand fun us hends _ _ =>
    reads_operand_constant rfl (Reads.next fun m hm => by rw [hm.token]; exact Reads.pure _ us) hends

theorem Parses.string (s : String) : Parses d l r [.quoted .plain s] (.value (.string s)) :=
  Parses.of_operand fun us hends _ _ =>
    reads_operand_constant rfl (Reads.next fun m hm => by rw [hm.token]; exact Reads.pure _ us) hends

theorem Parses.placeholder (s : String) : Parses d l r [.placeholder s] (.value (.placeholder s)) :=
  Parses.of_operand fun us hends _ _ =>
    reads_operand_constant rfl (Reads.next fun m hm => by rw [hm.token]; exact Reads.pure _ us) hends

/-- A word that opens a phrase, with the phrase. -/
theorem Parses.phrase {p : Parser Expr} (hw : Token.opensNoType (.word w) = true)
    (hp : ∀ operand' after, phraseBefore (.atDepth d) operand' ⟨w, none⟩ (Lexer.keyOf (.word w))
      after = some p)
    (h : ∀ us, Ends us → strengthOf us ≤ r → Reads p ts us x) : Parses d l r (.word w :: ts) x :=
  Parses.of_operand fun us hends hr _ =>
    reads_operand_word hw (reads_wordOperand_phrase (hp _ _) (h us hends hr)) hends.key_ne_collate

theorem Parses.nullValue : Parses d l r [.word "NULL"] (.value .null) :=
  Parses.phrase rfl (fun _ _ => rfl) fun us _ _ => Reads.pure _ us

theorem Parses.trueValue : Parses d l r [.word "true"] (.value (.boolean true)) :=
  Parses.phrase rfl (fun _ _ => rfl) fun us _ _ => Reads.pure _ us

theorem Parses.falseValue : Parses d l r [.word "false"] (.value (.boolean false)) :=
  Parses.phrase rfl (fun _ _ => rfl) fun us _ _ => Reads.pure _ us

/-! ### What an expression starts with -/

/-- The words that no expression starts with. -/
def nonStarters : List String :=
  ["ANY", "ALL", "SOME", "WHEN", "FROM", "DISTINCT", "TOP", "WITH", "SELECT", "VALUES", "VALUE",
    "TABLE", "INSERT", "UPDATE", "DELETE", "MERGE", "RETURNING", "ABSENT", "ON", "UNNEST", "GROUPING",
    "CUBE", "ROLLUP", "INTO"]

/-- A token that is no word and starts an expression; `paren` allows a parenthesis. -/
def isStart (paren : Bool) : Token → Bool
  | .symbol s => s == "-" || s == "+" || (paren && s == "(")
  | t => isConstant t

/-- Tokens that start like an expression: with a path of names, a keyword, a constant, a sign or, if
allowed, a parenthesis. -/
inductive Leads (paren : Bool) : List Token → Prop
  | path {w : String} (ws : List String) {more : List Token}
      (hw : Lexer.keyOf (.word w) ∉ nonStarters) (hpoint : front more ≠ .symbol ".")
      (hon : frontKey more ≠ "ON") : Leads paren (dotted w ws ++ more)
  | mark {t : Token} {more : List Token} (ht : isStart paren t = true)
      (hpoint : front more ≠ .symbol ".") : Leads paren (t :: more)

theorem Ends.not_point (h : Ends us) : front us ≠ .symbol "." :=
  h.symbol_ne (by decide)

theorem Leads.append {paren : Bool} (h : Leads paren ts) (hends : Ends us) : Leads paren (ts ++ us) := by
  cases h with
  | path ws hw hpoint hon =>
    rename_i w more
    rw [List.append_assoc]
    cases more with
    | nil => exact .path ws hw hends.not_point (hends.key_ne (by decide))
    | cons t more => exact .path ws hw hpoint hon
  | mark ht hpoint =>
    rename_i t more
    cases more with
    | nil => exact .mark ht hends.not_point
    | cons t more => exact .mark ht hpoint

theorem Leads.key_not_mem {paren : Bool} (h : Leads paren ts) : frontKey (ts ++ us) ∉ nonStarters := by
  cases h with
  | path ws hw => exact hw
  | mark ht hpoint =>
    rename_i t more
    cases t with
    | word w => cases ht
    | _ =>
      have hempty : "" ∉ nonStarters := by decide
      exact hempty

theorem Leads.key_ne {paren : Bool} {k : String} (h : Leads paren ts) (hk : k ∈ nonStarters) :
    frontKey (ts ++ us) ≠ k := by
  rintro rfl
  exact h.key_not_mem hk

theorem Leads.symbol_ne {paren : Bool} {s : String} (h : Leads paren ts)
    (hs : s ≠ "-" ∧ s ≠ "+" ∧ (paren = false ∨ s ≠ "(")) : front (ts ++ us) ≠ .symbol s := by
  cases h with
  | path ws hw => exact fun heq => by cases heq
  | mark ht hpoint =>
    rename_i t more
    intro heq
    cases (show t = .symbol s from heq)
    simp only [isStart, Bool.or_eq_true, beq_iff_eq, Bool.and_eq_true] at ht
    obtain (ht | ht) | ht := ht
    · exact hs.1 ht
    · exact hs.2.1 ht
    · obtain hs | hs := hs.2.2
      · rw [hs] at ht
        cases ht.1
      · exact hs ht.2

theorem Leads.not_point {paren : Bool} (h : Leads paren ts) : front ts ≠ .symbol "." := by
  have hne : front (ts ++ []) ≠ .symbol "." := h.symbol_ne ⟨by decide, by decide, .inr (by decide)⟩
  rwa [List.append_nil] at hne

theorem Leads.not_on {paren : Bool} (h : Leads paren ts) : frontKey ts ≠ "ON" := by
  have hne : frontKey (ts ++ []) ≠ "ON" := h.key_ne (by decide)
  rwa [List.append_nil] at hne

end Parser
end SqlLayout.Sql
