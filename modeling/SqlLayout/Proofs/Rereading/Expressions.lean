import SqlLayout.Proofs.Rereading.Casing
import SqlLayout.Proofs.Rereading.Writing

/-!
Expressions that are read back. Pieces whose tokens are those of an expression keep being so when they
stand beside the pieces of an operator that binds less tightly.
-/

namespace SqlLayout.Layout

open Sql (Token front frontKey)
open Sql.Lexer (isWord isOperatorChar keyOf)
open Sql.Parser (Parses Leads Ends Item IsTarget)

variable {s : Style} {d l r l' r' : Nat} {lead lead' : String} {ps qs : List Piece} {rd rd' : Reading}
  {ts us : List Token} {x y : Sql.Expr} {e e' : Expr}

/-- An expression that stands for a value, and not for a star or a named argument. -/
def IsValue : Sql.Expr → Prop
  | .star => False
  | .pathStar _ => False
  | .namedArg _ => False
  | .ident ⟨name, none⟩ => Text.eqIgnoreCase name "from" = false
  | _ => True

theorem IsValue.target (h : IsValue x) : IsTarget x := by
  cases x with
  | ident i =>
    obtain ⟨name, _ | q⟩ := i
    · exact h
    · trivial
  | star => cases h
  | pathStar => cases h
  | _ => trivial

/-- The pieces start with what no sign before them takes in. -/
def OpensApart (s : Style) (ps : List Piece) : Prop :=
  ∃ c cs, (Piece.textOf s ps).toList = c :: cs ∧ fuses c = false

theorem OpensApart.append (h : OpensApart s ps) (qs : List Piece) : OpensApart s (ps ++ qs) := by
  obtain ⟨c, cs, htext, hc⟩ := h
  exact ⟨c, cs ++ (Piece.textOf s qs).toList, by simp [htext], hc⟩

theorem opensApart_text {p : Piece} {c : Char} {cs : List Char} (hp : (p.text s).toList = c :: cs)
    (hc : fuses c = false) (ps : List Piece) : OpensApart s (p :: ps) :=
  ⟨c, cs ++ (Piece.textOf s ps).toList, by simp [hp], hc⟩

theorem opensApart_mark {m : String} (hm : IsOpener m) (ps : List Piece) :
    OpensApart s (.mark m :: ps) := by
  cases hlist : m.toList with
  | nil =>
    rw [IsOpener, hlist] at hm
    cases hm
  | cons c cs =>
    rw [IsOpener, hlist] at hm
    exact opensApart_text (p := .mark m) hlist (by simpa using hm) ps

/-- A character of a class without the characters of operators. -/
theorem not_fuses {p : Char → Bool} {c : Char} (hc : p c = true)
    (hplain : ∀ c ∈ "+-*/<>=~!@#%^&|\x60?".toList, p c = false) : fuses c = false := by
  have hoperator : isOperatorChar c = false := by
    by_contra hoperator
    rw [Bool.not_eq_false, isOperatorChar, List.contains_iff_mem] at hoperator
    rw [hplain c hoperator] at hc
    cases hc
  simp [fuses, hoperator]

theorem opensApart_word {w : String} (hw : isWord w.toList = true) (ps : List Piece) :
    OpensApart s (.leaf w :: ps) := by
  cases hlist : w.toList with
  | nil =>
    rw [hlist] at hw
    cases hw
  | cons c cs =>
    rw [hlist, isWord, Bool.and_eq_true] at hw
    exact opensApart_text (p := .leaf w) hlist (not_fuses hw.1 (by decide)) ps

/-- The pieces are read as an expression between an operator that binds less tightly than `l` and one
that binds at most as tightly as `r`. They start with the phrase `lead`. -/
structure Rereads (s : Style) (d l r : Nat) (lead : String) (ps : List Piece) (rd : Reading)
    (ts : List Token) (x : Sql.Expr) : Prop where
  spelled : Spelled s .fenced .bare ps ts
  parses : Parses d l r ts x
  positive : 0 < l
  leads : Leads (lead == "(") ts
  existence : lead ≠ "EXISTS(" → ∀ us, frontKey (ts ++ us) ≠ "EXISTS"
  opens : OpensApart s ps
  value : IsValue x
  reading : readingOf x = rd

/-- An expression is read back wherever it is laid out. -/
def Expr.Rereads (s : Style) (d : Nat) (isOperand : Bool) (e : Expr) : Prop :=
  ∀ depth, ∃ ts x, Layout.Rereads s d (e.left isOperand) (e.right isOperand) (e.lead isOperand)
    (e.pieces s depth isOperand) ((e.cased s).readingIn isOperand) ts x

theorem Rereads.item (h : Rereads s d l r lead ps rd ts x) : Item d ts x :=
  ⟨⟨l, r, h.positive, h.parses⟩, _, h.leads⟩

/-- Pieces after an expression that make another one of it. -/
theorem Rereads.extend (h : Rereads s d l r lead ps rd ts x) (hqs : Spelled s .bare .bare qs us)
    (hends : Ends us) (hparses : Parses d l' r' (ts ++ us) y) (hl' : 0 < l') (hvalue : IsValue y)
    (hreading : readingOf y = rd') : Rereads s d l' r' lead (ps ++ qs) rd' (ts ++ us) y where
  spelled := h.spelled.append hqs
  parses := hparses
  positive := hl'
  leads := h.leads.append hends
  existence hlead vs := by
    rw [List.append_assoc]
    exact h.existence hlead _
  opens := h.opens.append qs
  value := hvalue
  reading := hreading

/-! ### Operands of one token -/

/-- A word that stands for a value. -/
theorem Rereads.word {w : String} (hw : isWord w.toList = true)
    (hkey : keyOf (.word w) ∉ Sql.Parser.nonStarters)
    (hexists : keyOf (.word w) ≠ "EXISTS") (hparses : Parses d l r [.word w] x) (hl : 0 < l)
    (hvalue : IsValue x)
    (hreading : readingOf x = rd) : Rereads s d l r lead [.leaf w] rd [.word w] x where
  spelled := spelled_word hw
  parses := hparses
  positive := hl
  leads := (.path [] hkey (fun heq => by cases heq) (by decide) :
    Leads (lead == "(") (Sql.Parser.dotted w [] ++ []))
  existence _ us := hexists
  opens := opensApart_word hw []
  value := hvalue
  reading := hreading

/-- A constant of one token that is no word. -/
theorem Rereads.constant {t : Token} {c : Char} {cs : List Char} {v : Sql.Value} {p : Piece}
    (hspelled : Spelled s .fenced .bare [p] [t]) (ht : Sql.Parser.isConstant t = true)
    (hparses : ∀ d l r, Parses d l r [t] (.value v)) (htext : (p.text s).toList = c :: cs)
    (hc : fuses c = false)
    (hreading : readingOf (.value v) = rd) : Rereads s d Sql.Strength.period Sql.Strength.period
      lead [p] rd [t] (.value v) where
  spelled := hspelled
  parses := hparses _ _ _
  positive := by decide
  leads := by
    refine Leads.mark ?_ (fun heq => by cases heq)
    cases t <;> first | exact ht | cases ht
  existence _ us := by
    cases t <;> first | exact (by decide : "" ≠ "EXISTS") | cases ht
  opens := opensApart_text htext hc []
  value := trivial
  reading := hreading

theorem period_pos : 0 < Sql.Strength.period := by decide

theorem readingIn_false (e : Expr) : e.readingIn false = e.reading := by
  rw [Expr.readingIn, Bool.and_false]
  rfl

theorem readingIn_whole (e : Expr) : (e.readingIn false).whole = .ok e :=
  readingIn_false e ▸ reading_whole e

theorem readingIn_eq {isOperand : Bool} (h : e.isChain = false) : e.readingIn isOperand = e.reading := by
  simp [Expr.readingIn, h]

/-! ### Columns, constants and keywords -/

variable {isOperand : Bool}

theorem isFirstName_iff {w : String} (h : isFirstName w = true) :
    isWord w.toList = true ∧ Sql.Parser.isBare w = true ∧ keyOf (.word w) ∉ Sql.Parser.nonStarters ∧
      isSessionKeyword w = false ∧ Text.eqIgnoreCase w "from" = false := by
  simpa [isFirstName, and_assoc] using h

theorem key_ne_of_isBare {w k : String} (h : Sql.Parser.isBare w = true)
    (hk : k ∈ Sql.Parser.phraseWords) : keyOf (.word w) ≠ k := by
  rintro rfl
  simp only [Sql.Parser.isBare, Bool.and_eq_true, Bool.not_eq_true', List.contains_eq_mem,
    decide_eq_false_iff_not] at h
  exact h.2 hk

theorem print_bare (ws : List String) : (Sql.Parser.bare ws).map Sql.Ident.print = ws :=
  (List.map_map ..).trans (List.map_id ws)

theorem rereads_name {w : String} (hw : isFirstName w = true) :
    (Expr.column [w] false).Rereads s d isOperand := by
  intro depth
  obtain ⟨hword, hbare, hkey, hsession, hfrom⟩ := isFirstName_iff hw
  refine ⟨_, _, .word hword hkey (key_ne_of_isBare hbare (by decide))
    (Parses.name hbare) period_pos hfrom ?_⟩
  rw [readingIn_eq rfl]
  simp only [readingOf, Expr.ofIdent, hsession]
  rfl

theorem rereads_column {fields : List String} (h : isNamePath d fields = true) :
    (Expr.column fields false).Rereads s d isOperand := by
  match fields, h with
  | [w], h => exact rereads_name h
  | w :: v :: ws, h =>
    intro depth
    simp only [isNamePath, Bool.and_eq_true, List.all_eq_true, isNextName, decide_eq_true_eq] at h
    obtain ⟨⟨⟨hw, hexcluded⟩, hws⟩, hd⟩ := h
    obtain ⟨hword, hbare, hkey, -, -⟩ := isFirstName_iff hw
    have hspelled := spelled_path (s := s) hword fun v hv => (hws v hv).1
    refine ⟨_, _, hspelled, Parses.path hbare (fun v hv => (hws v hv).2) hd, period_pos, ?_, ?_, ?_,
      trivial, ?_⟩
    · have hleads : Leads ((Expr.column (w :: v :: ws) false).lead isOperand == "(")
        (Sql.Parser.dotted w (v :: ws) ++ []) := .path _ hkey (fun heq => by cases heq) (by decide)
      rwa [List.append_nil] at hleads
    · exact fun _ us => key_ne_of_isBare hbare (by decide)
    · exact opensApart_word hword _
    · have hlead : (if Text.eqIgnoreCase w "excluded" then "EXCLUDED" else w) = w := by
        split
        · simp_all
        · rfl
      rw [readingIn_eq rfl]
      change Reading.same (.ok
        (.column ((if Text.eqIgnoreCase w "excluded" then "EXCLUDED" else w) :: v ::
        (Sql.Parser.bare ws).map Sql.Ident.print) false)) = _
      rw [hlead, print_bare]
      rfl

theorem rereads_keyword {w : String} (h : w ∈ sessionKeywords) :
    (Expr.keyword w).Rereads s d isOperand := by
  intro depth
  have hfacts : ∀ w ∈ sessionKeywords, Text.upper w = w ∧ isWord w.toList = true ∧
      keyOf (.word w) ∉ Sql.Parser.nonStarters ∧ keyOf (.word w) ≠ "EXISTS" ∧ isSessionKeyword w = true ∧
      Text.eqIgnoreCase w "from" = false ∧
      (w ∈ Sql.Parser.sessionWords ∨ w ∈ Sql.Parser.timeWords ∨ Sql.Parser.isBare w = true) := by
    decide +kernel
  obtain ⟨hupper, hword, hkey, hexists, hsession, hfrom, hkind⟩ := hfacts w h
  have hpieces : (Expr.keyword w).pieces s depth isOperand = [.leaf w] := by rw [Expr.pieces, hupper]
  rw [hpieces, readingIn_eq rfl]
  have hbareCall : readingOf (.bareCall [⟨w, none⟩]) = .same (.ok (.keyword w)) := by
    change Reading.same (.ok (if isSessionKeyword w then .keyword (Text.upper w) else _)) = _
    rw [if_pos hsession, hupper]
  obtain hw | hw | hbare := hkind
  · exact ⟨_, _, .word hword hkey hexists (Parses.session hw) period_pos trivial hbareCall⟩
  · exact ⟨_, _, .word hword hkey hexists (Parses.time hw) period_pos trivial hbareCall⟩
  · refine ⟨_, _, .word hword hkey hexists
      (Parses.name hbare) period_pos hfrom ?_⟩
    simp only [readingOf, Expr.ofIdent, hsession, hupper]
    rfl

theorem rereads_param {n : Nat} (h : n < UInt32.size) : (Expr.param n).Rereads s d isOperand := by
  intro depth
  refine ⟨_, _, .constant (spelled_param n) rfl (fun _ _ _ => Parses.placeholder _)
    (String.toList_append ..) (by decide) ?_⟩
  rw [readingIn_eq rfl]
  simp only [readingOf, Expr.ofValue, Grouping.paramNumber_toString h]
  rfl

theorem isNumeral_head {t : String} (h : isNumeral t = true) :
    ∃ c cs, t.toList = c :: cs ∧ fuses c = false := by
  rw [isNumeral, Bool.and_eq_true] at h
  cases hlist : t.toList with
  | nil =>
    rw [hlist] at h
    exact absurd h.1 (by decide)
  | cons c cs =>
    have hdigit : c.isDigit = true := by
      by_contra hdigit
      rw [hlist, List.takeWhile_cons_of_neg hdigit] at h
      exact absurd h.1 (by decide)
    exact ⟨c, cs, rfl, not_fuses hdigit (by decide)⟩

theorem rereads_const {c : Const} (h : c.isReadable = true) : (Expr.const c).Rereads s d isOperand := by
  intro depth
  rw [readingIn_eq rfl]
  match c, h with
  | .number digits, h =>
    obtain ⟨c, cs, htext, hc⟩ := isNumeral_head h
    exact ⟨_, _, .constant (spelled_numeral h) rfl (fun _ _ _ => Parses.number _) htext hc rfl⟩
  | .string t, _ =>
    exact ⟨_, _, .constant (spelled_string t) rfl (fun _ _ _ => Parses.string _) (c := '\x27')
      (by simp [Piece.text, Const.text, Text.replaceAll]; rfl) (by decide) rfl⟩
  | .boolean true, _ =>
    exact ⟨_, _, .word (by decide) (by decide) (by decide) Parses.trueValue period_pos trivial rfl⟩
  | .boolean false, _ =>
    exact ⟨_, _, .word (by decide) (by decide) (by decide) Parses.falseValue period_pos trivial rfl⟩
  | .null, _ =>
    exact ⟨_, _, .word (by decide) (by decide) (by decide) Parses.nullValue period_pos trivial rfl⟩

/-! ### Operators -/

/-- A phrase between two operands. -/
theorem Rereads.between_operands {mid : List Token} {m : List Piece} {z : Sql.Expr}
    (h : Rereads s (d + 1) l r lead ps rd ts x) (h' : Rereads s d l' r' lead' qs rd' us y)
    (hmid : Spelled s .bare .fenced m mid) (hends : Ends (mid ++ us)) {l'' r'' : Nat} (hl : 0 < l'')
    (hparses : Parses (d + 1) l'' r'' (ts ++ (mid ++ us)) z) (hvalue : IsValue z) {rd'' : Reading}
    (hreading : readingOf z = rd'') :
    Rereads s (d + 1) l'' r'' lead (ps ++ (m ++ qs)) rd'' (ts ++ (mid ++ us)) z :=
  h.extend (hmid.append h'.spelled) hends hparses hl hvalue hreading

theorem infixStrength_sign {op : String} (hop : op ∈ Sql.Lexer.writtenSigns.map (·.2.2)) :
    infixStrength op = Sql.Parser.symbolStrength op ∧ infixReach op = Sql.Parser.symbolStrength op ∧
      Sql.Parser.binarySymbol? op = some op ∧ Sql.Parser.endSymbols.contains op = true ∧
      0 < Sql.Parser.symbolStrength op ∧ Sql.Parser.symbolStrength op ≠ Sql.Strength.period := by
  have hall : ∀ op ∈ Sql.Lexer.writtenSigns.map (·.2.2), infixStrength op =
      Sql.Parser.symbolStrength op ∧
      infixReach op = Sql.Parser.symbolStrength op ∧ Sql.Parser.binarySymbol? op = some op ∧
      Sql.Parser.endSymbols.contains op = true ∧ 0 < Sql.Parser.symbolStrength op ∧
      Sql.Parser.symbolStrength op ≠ Sql.Strength.period := by decide +kernel
  exact hall op hop

theorem operation_pieces (op : String) (left right : Expr) (depth : Nat) :
    (Expr.operation .none op left right none).pieces s depth isOperand =
      left.pieces s depth false ++ ([.mark " ", .leaf (operatorText op), .mark " "] ++
        (right.pieces s depth false ++ [.mark ""])) := by
  simp [Expr.pieces, Quantifier.opening, Quantifier.closing, optionPieces]

/-- The tokens of an operator that is a word or more. -/
def operatorTokens (op : String) : List Token :=
  Sql.Lexer.skim [] (" " ++ op ++ " ").toList

theorem spelled_operator {op : String} (hop : op ∈ wordOperators) :
    Spelled s .bare .fenced [.mark " ", .leaf (operatorText op), .mark " "] (operatorTokens op) := by
  have hmark : ∀ op ∈ wordOperators, joins .bare (" " ++ op ++ " ") .fenced = true ∧
      operatorText op = op := by decide
  obtain ⟨hjoins, htext⟩ := hmark op hop
  have hspelled := Spelled.mark (s := s) hjoins
  intro cs us hcs hus
  simpa [Piece.text, htext, String.append_assoc, operatorTokens] using hspelled cs us hcs hus

theorem rereads_operation {op : String} {left right : Expr} (hop : op ∈ infixOperators)
    (hleft : left.Rereads s (d + 1) false) (hl : infixStrength op ≤ left.right false)
    (hright : right.Rereads s d false) (hr : infixStrength op < right.left false) :
    (Expr.operation .none op left right none).Rereads s (d + 1) isOperand := by
  intro depth
  obtain ⟨ts, x, h⟩ := hleft depth
  obtain ⟨us, y, h'⟩ := hright depth
  have hwhole : (readingOf x).whole = .ok (left.cased s) := h.reading ▸ readingIn_whole _
  have hwhole' : (readingOf y).whole = .ok (right.cased s) := h'.reading ▸ readingIn_whole _
  have h'' : Rereads s d _ _ _ (right.pieces s depth false ++ [.mark ""]) _ us y :=
    { h' with
      spelled := by simpa using h'.spelled.append (Spelled.empty .bare)
      opens := h'.opens.append _ }
  have hreading : Reading.same (do
      return .operation .none op (← (readingOf x).whole) (← (readingOf y).whole) none) =
      ((Expr.operation .none op left right none).cased s).readingIn isOperand := by
    rw [readingIn_eq rfl, hwhole, hwhole']
    rfl
  rw [operation_pieces]
  obtain hword | hsign := List.mem_append.1 hop
  · have hmid := spelled_operator (s := s) hword
    simp only [wordOperators, List.mem_cons, List.not_mem_nil, or_false] at hword
    obtain rfl | rfl | rfl | rfl | rfl | rfl := hword
    · exact ⟨_, _, h.between_operands h'' hmid rfl (Nat.lt_min.2 ⟨by decide, h.positive⟩)
        (h.parses.like false hl h'.parses hr h'.leads) trivial hreading⟩
    · exact ⟨_, _, h.between_operands h'' hmid rfl (Nat.lt_min.2 ⟨by decide, h.positive⟩)
        (h.parses.like true hl h'.parses hr h'.leads) trivial hreading⟩
    · exact ⟨_, _, h.between_operands h'' hmid rfl (Nat.lt_min.2 ⟨by decide, h.positive⟩)
        (h.parses.ilike false hl h'.parses hr h'.leads) trivial hreading⟩
    · exact ⟨_, _, h.between_operands h'' hmid rfl (Nat.lt_min.2 ⟨by decide, h.positive⟩)
        (h.parses.ilike true hl h'.parses hr h'.leads) trivial hreading⟩
    · have hreach : (Expr.operation .none "IS DISTINCT FROM" left right none).right isOperand = 0 :=
        Nat.zero_min _
      exact ⟨_, _, h.between_operands h'' hmid rfl (Nat.lt_min.2 ⟨by decide, h.positive⟩)
        (z := .distinctFrom x false y)
          (hreach.symm ▸ h.parses.distinctFrom hl h'.parses h'.positive) trivial hreading⟩
    · have hreach : (Expr.operation .none "IS NOT DISTINCT FROM" left right none).right isOperand = 0 :=
        Nat.zero_min _
      exact ⟨_, _, h.between_operands h'' hmid rfl (Nat.lt_min.2 ⟨by decide, h.positive⟩)
        (z := .distinctFrom x true y)
          (hreach.symm ▸ h.parses.notDistinctFrom hl h'.parses h'.positive) trivial hreading⟩
  · obtain ⟨hstrength, hreach, hbinary, hends, hpos, hperiod⟩ := infixStrength_sign hsign
    rw [hstrength] at hl hr
    have hparses := h.parses.operation hbinary hends hperiod hl h'.parses hr h'.leads
    have hleft : (Expr.operation .none op left right none).left isOperand =
        min (Sql.Parser.symbolStrength op) (left.left false) := by rw [Expr.left, hstrength]
    have hright : (Expr.operation .none op left right none).right isOperand =
        min (Sql.Parser.symbolStrength op) (right.right false) := by rw [Expr.right, hreach]
    rw [hleft, hright]
    exact ⟨_, _, h.between_operands h'' (spelled_sign hsign) hends (Nat.lt_min.2 ⟨hpos, h.positive⟩)
      hparses trivial hreading⟩

/-! ### Tests and casts -/

/-- A test after an expression. -/
theorem Rereads.test {m w : String} {truth : Sql.Truth} (negated : Bool)
    (h : Rereads s d l r lead ps rd ts x)
    (hwhole : rd.whole = .ok e) (hr : Sql.Strength.is ≤ r) (hm : joins .bare m .bare = true)
    (htokens : Sql.Lexer.skim [] m.toList = .word "IS" ::
      ((if negated then [.word "NOT"] else []) ++ [.word w]))
    (htruth : Sql.Parser.truths.lookup (keyOf (.word w)) = some truth) :
    ∃ us y, Rereads s d (min Sql.Strength.is l) Sql.Strength.period lead (ps ++ [.mark m])
      (.same (.ok (.ofTest e negated truth))) us y := by
  have hpositive : 0 < min Sql.Strength.is l := Nat.lt_min.2 ⟨by decide, h.positive⟩
  have hspelled := Spelled.mark (s := s) hm
  have hreading : readingOf (.is x negated truth) = .same (.ok (.ofTest e negated truth)) := by
    simp only [readingOf, h.reading, hwhole]
    rfl
  rw [htokens] at hspelled
  cases negated with
  | false => exact ⟨_, _, h.extend hspelled rfl (h.parses.test hr htruth) hpositive trivial hreading⟩
  | true => exact ⟨_, _, h.extend hspelled rfl (h.parses.testNot hr htruth) hpositive trivial hreading⟩

theorem rereads_nullTest {t : NullTest} (he : e.Rereads s d false)
    (hr : Sql.Strength.is ≤ e.right false) : (Expr.nullTest e t).Rereads s d isOperand := by
  intro depth
  obtain ⟨ts, x, h⟩ := he depth
  cases t with
  | isNull =>
    exact h.test false (readingIn_whole _) hr (m := " IS NULL") (w := "NULL") (by decide) rfl rfl
  | isNotNull =>
    exact h.test true (readingIn_whole _) hr (m := " IS NOT NULL") (w := "NULL") (by decide) rfl rfl

theorem rereads_truthTest {t : TruthTest} (he : e.Rereads s d false)
    (hr : Sql.Strength.is ≤ e.right false) : (Expr.truthTest e t).Rereads s d isOperand := by
  intro depth
  obtain ⟨ts, x, h⟩ := he depth
  have hwhole : ((e.cased s).readingIn false).whole = .ok (e.cased s) := readingIn_whole _
  cases t with
  | isTrue => exact h.test false hwhole hr (m := " IS TRUE") (w := "TRUE") (by decide) rfl rfl
  | isNotTrue => exact h.test true hwhole hr (m := " IS NOT TRUE") (w := "TRUE") (by decide) rfl rfl
  | isFalse => exact h.test false hwhole hr (m := " IS FALSE") (w := "FALSE") (by decide) rfl rfl
  | isNotFalse => exact h.test true hwhole hr (m := " IS NOT FALSE") (w := "FALSE") (by decide) rfl rfl
  | isUnknown => exact h.test false hwhole hr (m := " IS UNKNOWN") (w := "UNKNOWN") (by decide) rfl rfl
  | isNotUnknown =>
    exact h.test true hwhole hr (m := " IS NOT UNKNOWN") (w := "UNKNOWN") (by decide) rfl rfl

/-- The name of a type of one word is read as a type of that name. -/
theorem reads_typeName {t : String} (h : isTypeName t = true) : ∃ type, typeName type = (t, 0) ∧
    ∀ g us, Ends us → Sql.Parser.Reads (Sql.Parser.dataType g) [.word t] us type := by
  rw [isTypeName, Bool.and_eq_true] at h
  obtain ⟨-, h⟩ := h
  split at h
  · rename_i text htext
    exact ⟨.builtin text, by simpa [typeName, Sql.DataType.print] using h,
      fun g us hends => Sql.Parser.reads_builtin htext hends⟩
  · exact ⟨.custom [⟨t, none⟩] [], rfl, fun g us hends => Sql.Parser.reads_custom h hends⟩

theorem rereads_cast {t : String} (he : e.Rereads s d false) (hr : Sql.Strength.cast ≤ e.right false)
    (ht : isTypeName t = true) : (Expr.cast e t 0).Rereads s d isOperand := by
  intro depth
  obtain ⟨ts, x, h⟩ := he depth
  obtain ⟨type, htype, hreads⟩ := reads_typeName ht
  have hwhole : (readingOf x).whole = .ok (e.cased s) := h.reading ▸ readingIn_whole _
  have hword : isWord t.toList = true := by
    rw [isTypeName, Bool.and_eq_true] at ht
    exact ht.1
  have hpieces : (Expr.cast e t 0).pieces s depth isOperand = e.pieces s depth false ++
      [.mark "::", .leaf t] := by
    simp [Expr.pieces]
  rw [hpieces]
  refine ⟨_, _, h.extend (spelled_cast.append (spelled_word hword)) rfl
    (h.parses.cast hr fun us hends => hreads _ us hends) (Nat.lt_min.2 ⟨by decide, h.positive⟩)
      trivial ?_⟩
  simp only [readingOf, hwhole, htype]
  rfl

/-! ### Signs and parentheses -/

/-- An expression between parentheses, which may stand on lines of their own. -/
theorem Rereads.parenthesized {before after : List Piece} (h : Rereads s d l r lead ps rd ts x)
    (hopen : Spelled s .fenced .fenced (.mark "(" :: before) [.symbol "("])
    (hclose : Spelled s .bare .bare after [.symbol ")"]) :
    Rereads s (d + 1) Sql.Strength.period Sql.Strength.period "("
      (.mark "(" :: (before ++ (ps ++ after))) rd.nested
      (.symbol "(" :: (ts ++ [.symbol ")"])) (.nested x) where
  spelled := by simpa using (hopen.append h.spelled).append hclose
  parses := h.parses.nested h.positive h.leads
  positive := period_pos
  leads := .mark (by decide) (h.leads.symbol_ne ⟨by decide, by decide, .inr (by decide)⟩)
  existence := fun _ us => (by decide : "" ≠ "EXISTS")
  opens := opensApart_mark (by decide) _
  value := trivial
  reading := by rw [readingOf, h.reading]

theorem rereads_nested (he : e.Rereads s d false) : (Expr.nested e).Rereads s (d + 1) isOperand := by
  intro depth
  obtain ⟨ts, x, h⟩ := he depth
  have hopen : Spelled s .fenced .fenced [.mark "("] [.symbol "("] := Spelled.mark (by decide)
  have hclose : Spelled s .bare .bare [.mark ")"] [.symbol ")"] := Spelled.mark (by decide)
  have hnested := h.parenthesized hopen hclose
  rw [readingIn_false] at hnested
  exact ⟨_, _, hnested⟩

theorem rereads_unary {op : String} (hop : op = "+" ∨ op = "-") (he : e.Rereads s d false)
    (hl : Sql.Strength.product < e.left false) : (Expr.unary op e).Rereads s (d + 1) isOperand := by
  intro depth
  obtain ⟨ts, x, h⟩ := he depth
  obtain ⟨c, cs, htext, hc⟩ := h.opens
  have hspelled : Spelled s .fenced .bare ((Expr.unary op e).pieces s depth isOperand)
      (.symbol op :: ts) := by
    have hpieces : (Expr.unary op e).pieces s depth isOperand =
        .leaf op :: ((if startsWithSign s (e.pieces s depth false) then [.mark " "] else []) ++
          e.pieces s depth false) := by
      rw [Expr.pieces, List.append_assoc, List.singleton_append]
    rw [hpieces]
    by_cases hsign : startsWithSign s (e.pieces s depth false) = true
    · rw [if_pos hsign]
      have hblank : Spelled s .fenced .fenced [.mark " "] [] := Spelled.mark (by decide)
      refine spelled_prefixed hop (hblank.append h.spelled) fun vs => ?_
      simp [Piece.text]
      decide
    · rw [if_neg hsign, List.nil_append]
      refine spelled_prefixed hop h.spelled fun vs => ?_
      have hoperator : isOperatorChar c = false := by
        by_contra hoperator
        rw [startsWithSign, htext] at hsign
        simp only [fuses, hoperator, Bool.true_and, Bool.and_eq_false_iff, bne_eq_false_iff_eq] at hc
        obtain rfl | rfl := hc <;> exact hsign rfl
      rw [htext]
      exact hoperator
  have hopens : OpensApart s ((Expr.unary op e).pieces s depth isOperand) := by
    obtain rfl | rfl := hop
    · exact ⟨'+', _, by simp [Expr.pieces, Piece.text]; rfl, by decide⟩
    · exact ⟨'-', _, by simp [Expr.pieces, Piece.text]; rfl, by decide⟩
  have hlead : (Expr.unary op e).lead isOperand = op := by
    obtain rfl | rfl := hop <;> rfl
  have hwhole : (readingOf x).whole = .ok (e.cased s) := h.reading ▸ readingIn_whole _
  obtain ⟨y, hparses, hvalue, hreading⟩ : ∃ y,
    Parses (d + 1) Sql.Strength.period (min Sql.Strength.product (e.right false))
      (.symbol op :: ts) y ∧ IsValue y ∧ readingOf y = .same (.ok (.unary op (e.cased s))) := by
    obtain rfl | rfl := hop
    · exact ⟨_, h.parses.plus hl, trivial, by rw [readingOf, hwhole]; rfl⟩
    · exact ⟨_, h.parses.minus hl, trivial, by rw [readingOf, hwhole]; rfl⟩
  refine ⟨_, _, hspelled, hparses, period_pos, ?_, ?_, hopens, hvalue, hreading⟩
  · refine .mark ?_ h.leads.not_point
    obtain rfl | rfl := hop <;> rfl
  · exact fun _ us => (by decide : "" ≠ "EXISTS")

/-! ### Conditions -/

theorem rereads_not (he : e.Rereads s d true) (hl : Sql.Strength.not < e.left true)
    (hbare : e.isNested = false)
    (hlead : e.lead true ≠ "EXISTS(") : (Expr.logic .not [e]).Rereads s (d + 1) isOperand := by
  intro depth
  obtain ⟨ts, x, h⟩ := he depth
  have hnot : Spelled s .fenced .fenced [.mark "NOT "] [.word "NOT"] := Spelled.mark (by decide)
  refine ⟨.word "NOT" :: ts, .unary .not x,
    by simpa [Expr.pieces, firstOperand] using hnot.append h.spelled,
    h.parses.not hl (h.existence hlead), period_pos, ?_, fun _ us => (by decide : "NOT" ≠ "EXISTS"),
    opensApart_mark (by decide) _, trivial, ?_⟩
  · exact .path [] (by decide) h.leads.not_point h.leads.not_on
  · rw [readingOf, h.reading, readingIn_bare ((cased_isNested s e).trans hbare)]
    rfl

/-- One more condition of a chain. -/
theorem Rereads.connect {c : Connective} {as bs : List Expr} (hc : c ≠ .not) (depth : Nat)
    (h : Rereads s (d + 1) l r lead ps rd ts x) (hr : chainStrength c ≤ r)
    (h' : Rereads s d l' r' lead' qs rd' us y)
    (hl : chainStrength c < l') (has : rd.operands c = .ok as) (hbs : rd'.operands c = .ok bs) :
    ∃ vs z, Rereads s (d + 1) (min (chainStrength c) l) (min (chainStrength c) r') lead
      (ps ++ (Piece.newline depth ++ [.mark (c.text ++ " ")] ++ qs)) (.conditions c (as ++ bs)) vs
        z := by
  have hchain : Reading.chain c (readingOf x) (readingOf y) = .conditions c (as ++ bs) := by
    rw [h.reading, h'.reading]
    exact chain_conditions has hbs
  cases c with
  | not => exact absurd rfl hc
  | and =>
    have hmid : Spelled s .bare .fenced (Piece.newline depth ++ [.mark "AND "]) [.word "AND"] :=
      (spelled_newline s depth).append (Spelled.mark (by decide))
    exact ⟨_, _, h.between_operands h' hmid rfl (Nat.lt_min.2 ⟨by decide, h.positive⟩)
      (h.parses.conjunction hr h'.parses hl h'.leads) trivial hchain⟩
  | or =>
    have hmid : Spelled s .bare .fenced (Piece.newline depth ++ [.mark "OR "]) [.word "OR"] :=
      (spelled_newline s depth).append (Spelled.mark (by decide))
    exact ⟨_, _, h.between_operands h' hmid rfl (Nat.lt_min.2 ⟨by decide, h.positive⟩)
      (h.parses.disjunction hr h'.parses hl h'.leads) trivial hchain⟩

/-- The conditions of a chain after those that stand before them. -/
theorem Rereads.rest {c : Connective} {as es : List Expr} (hc : c ≠ .not) (depth : Nat) (hne : es ≠ [])
    (hes : ∀ e ∈ es, e.Rereads s d true) (h : restIsReadable d c es = true)
    (hfirst : Rereads s (d + 1) l r lead ps rd ts x) (hr : chainStrength c ≤ r)
    (has : rd.operands c = .ok as) :
    ∃ us y, Rereads s (d + 1) (min (chainStrength c) l) (min (chainStrength c) (lastRight es)) lead
      (ps ++ chainRest s depth c es) (.conditions c (as ++ exprsCased s es)) us y := by
  induction es generalizing l r ps rd ts x as with
  | nil => exact absurd rfl hne
  | cons e es ih =>
    simp only [restIsReadable, Bool.and_eq_true, Bool.or_eq_true, decide_eq_true_eq] at h
    obtain ⟨⟨⟨⟨-, hoperand⟩, hl⟩, hright⟩, hrest⟩ := h
    obtain ⟨us, y, h'⟩ := hes e List.mem_cons_self (depth + 1)
    have hoperands : ((e.cased s).readingIn true).operands c = .ok [e.cased s] :=
      readingIn_operands (by simpa [Expr.isOperandOf] using hoperand)
    obtain ⟨vs, z, hnext⟩ := hfirst.connect hc (depth + 1) hr h' hl has hoperands
    cases es with
    | nil => exact ⟨vs, z, by simpa [chainRest, exprsCased, lastRight] using hnext⟩
    | cons e' es =>
      have hfits : chainStrength c ≤ min (chainStrength c) (e.right true) :=
        Nat.le_min.2 ⟨Nat.le_refl _, hright.resolve_left (by simp)⟩
      have has' : (Reading.conditions c (as ++ [e.cased s])).operands c = .ok (as ++ [e.cased s]) := by
        simp [Reading.conditions]
      obtain ⟨us', y', hlast⟩ := ih (List.cons_ne_nil _ _)
        (fun x hx => hes x (List.mem_cons_of_mem e hx)) hrest hnext hfits has'
      rw [← Nat.min_assoc, Nat.min_self] at hlast
      exact ⟨us', y', by simpa [chainRest, exprsCased, lastRight] using hlast⟩

theorem rereads_chain {c : Connective} {args : List Expr} (hc : c ≠ .not)
    (h : chainIsReadable d c args = true)
    (hfirst : ∀ e ∈ args.head?, e.Rereads s d true)
    (hrest : ∀ e ∈ args.tail, e.Rereads s (d - 1) true) (depth : Nat) :
    ∃ ts x, Rereads s d (min (chainStrength c) (firstLeft args)) (min (chainStrength c) (lastRight args))
      (firstLead args) (chainPieces s depth c args) (.conditions c (exprsCased s args)) ts x := by
  cases args with
  | nil => cases h
  | cons e es =>
    simp only [chainIsReadable, Bool.and_eq_true, Bool.not_eq_true', List.isEmpty_eq_false_iff,
      decide_eq_true_eq] at h
    obtain ⟨⟨⟨⟨⟨hd, hne⟩, -⟩, hoperand⟩, hright⟩, hreadable⟩ := h
    obtain ⟨d, rfl⟩ : ∃ n, d = n + 1 := ⟨d - 1, by omega⟩
    obtain ⟨ts, x, h⟩ := hfirst e rfl depth
    have hoperands : ((e.cased s).readingIn true).operands c = .ok [e.cased s] :=
      readingIn_operands (by simpa [Expr.isOperandOf] using hoperand)
    obtain ⟨us, y, hlast⟩ := h.rest hc depth hne hrest hreadable hright hoperands
    obtain ⟨e', es, rfl⟩ := List.exists_cons_of_ne_nil hne
    exact ⟨us, y, hlast⟩

theorem rereads_logic {c : Connective} {args : List Expr} (hc : c ≠ .not)
    (h : (Expr.logic c args).isReadable d isOperand = true)
    (hargs : ∀ d, chainIsReadable d c args = true →
      (∀ e ∈ args.head?, e.Rereads s d true) ∧ ∀ e ∈ args.tail, e.Rereads s (d - 1) true) :
    (Expr.logic c args).Rereads s d isOperand := by
  intro depth
  have hcond : ((Expr.logic c args).cased s).reading = .conditions c (exprsCased s args) := by
    cases c <;> first | rfl | exact absurd rfl hc
  cases isOperand with
  | false =>
    have hreadable : chainIsReadable d c args = true := by
      cases c <;> first | exact h | exact absurd rfl hc
    obtain ⟨ts, x, h⟩ := rereads_chain hc hreadable (hargs d hreadable).1 (hargs d hreadable).2 depth
    rw [readingIn_false, hcond]
    cases c <;> first | exact ⟨ts, x, h⟩ | exact absurd rfl hc
  | true =>
    have hreadable : 0 < d ∧ chainIsReadable (d - 1) c args = true := by
      cases c <;> first | simpa [Expr.isReadable] using h | exact absurd rfl hc
    obtain ⟨d, rfl⟩ : ∃ n, d = n + 1 := ⟨d - 1, by omega⟩
    obtain ⟨ts, x, h⟩ := rereads_chain hc hreadable.2 (hargs d hreadable.2).1
      (hargs d hreadable.2).2 (depth + 1)
    have hopen : Spelled s .fenced .fenced [.mark "(", .lineBreak, .indent (depth + 1)] [.symbol "("] :=
      (Spelled.mark (s := s) (b := .bare) (by decide)).append (spelled_newline s (depth + 1))
    have hclose : Spelled s .bare .bare (Piece.newline depth ++ [.mark ")"]) [.symbol ")"] :=
      (spelled_newline s depth).append (Spelled.mark (by decide))
    have hpieces : (Expr.logic c args).pieces s depth true = .mark "(" ::
        ([.lineBreak, .indent (depth + 1)] ++
        (chainPieces s (depth + 1) c args ++ (Piece.newline depth ++ [.mark ")"]))) := by
      cases c <;> first | exact absurd rfl hc | simp [Expr.pieces]
    rw [hpieces]
    have hnested := h.parenthesized hopen hclose
    rw [← hcond] at hnested
    cases c <;> first | exact ⟨_, _, hnested⟩ | exact absurd rfl hc

end SqlLayout.Layout
