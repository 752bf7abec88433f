import SqlLayout.Proofs.Quoting
import SqlLayout.Proofs.Soundness
import SqlLayout.Proofs.TypeNames

/-!
Signs. A sign stands apart from its operand, unless the operand starts with an operator of its own:
then the two are read as one operator.
-/

namespace SqlLayout.Text

variable {x : Char} {t u : String}

/-- The text starts with the character. -/
def HeadIs (x : Char) (t : String) : Prop :=
  t.toList.head? = some x

theorem headIs_append (h : ¬ HeadIs x u) : HeadIs x (t ++ u) ↔ HeadIs x t := by
  unfold HeadIs at *
  rw [String.toList_append]
  cases t.toList with
  | nil => simpa using h
  | cons c r => rfl

theorem headIs_append_of_ne (h : t ≠ "") : HeadIs x (t ++ u) ↔ HeadIs x t := by
  unfold HeadIs
  rw [String.toList_append]
  cases hcs : t.toList with
  | nil => exact absurd (String.toList_eq_nil_iff.1 hcs) h
  | cons c r => rfl

/-- A text that starts with another kind of character. -/
theorem not_headIs_append {p : Char → Bool} (hx : p x)
    (ht : t.toList.head?.any (fun c => !p c) = true) : ¬ HeadIs x (t ++ u) := by
  unfold HeadIs
  rw [String.toList_append]
  cases hcs : t.toList with
  | nil => simp [hcs] at ht
  | cons c r =>
    rintro ⟨⟩
    simp [hcs, hx] at ht

theorem not_headIs {p : Char → Bool} (hx : p x) (ht : t.toList.head?.any (fun c => !p c) = true) :
    ¬ HeadIs x t := by
  simpa using not_headIs_append (u := "") hx ht

end SqlLayout.Text

namespace SqlLayout.Layout

open Text (HeadIs headIs_append headIs_append_of_ne not_headIs not_headIs_append)
open Sql.Lexer (isOperatorChar)

/-- Operator characters that are no signs. -/
def fuses (c : Char) : Bool :=
  isOperatorChar c && c != '+' && c != '-'

mutual

/-- The phrase that an expression starts with, as it stands in the tree. -/
def Expr.lead (isOperand : Bool) : Expr → String
  | .column [] _ => "*"
  | .column (field :: _) _ => field
  | .keyword word => word
  | .const c => c.text
  | .param _ => "$"
  | .call c => c.name.head?.getD "("
  | .operation _ _ l _ _ => l.lead false
  | .logic .not _ => "NOT"
  | .logic _ args => if isOperand then "(" else firstLead args
  | .nullTest e _ => e.lead false
  | .truthTest e _ => e.lead false
  | .cast e _ _ => e.lead false
  | .caseOf _ _ _ => "CASE"
  | .coalesce _ => "COALESCE"
  | .link kind test _ negated _ => testLead (if negated then "NOT" else kind.opening) test
  | .inList e _ _ => e.lead false
  | .between e _ _ _ => e.lead false
  | .array _ => "ARRAY"
  | .unary op e => if op.isEmpty then e.lead false else op
  | .nested _ => "("
  | .verbatim t => t

def firstLead : List Expr → String
  | [] => ""
  | e :: _ => e.lead true

def testLead (other : String) : Option Expr → String
  | none => other
  | some e => e.lead false

end

variable {s : Style} {x : Char}

/-- The text does not start with an operator. -/
abbrev IsOpener (t : String) : Prop :=
  t.toList.head?.any (fun c => !fuses c) = true

theorem not_headIs_mark {qs : List Piece} {t : String} (hx : fuses x) (ht : IsOpener t) :
    ¬ HeadIs x (Piece.textOf s (.mark t :: qs)) :=
  not_headIs_append hx ht

/-- Fixed text that starts with no operator ends what stands in front of it. -/
theorem lead_append {ps qs : List Piece} {t : String} (hx : fuses x) (ht : IsOpener t) :
    HeadIs x (Piece.textOf s (ps ++ .mark t :: qs)) ↔ HeadIs x (Piece.textOf s ps) := by
  rw [Piece.textOf_append]
  exact headIs_append (not_headIs_mark hx ht)

theorem lead_newline {ps qs : List Piece} (hx : fuses x) (d : Nat) :
    HeadIs x (Piece.textOf s (ps ++ (Piece.newline d ++ qs))) ↔ HeadIs x (Piece.textOf s ps) := by
  have hbreak : IsOpener "\n" := by decide
  rw [Piece.textOf_append, Piece.newline, List.cons_append, Piece.textOf_cons]
  exact headIs_append (not_headIs_append hx hbreak)

/-- Fixed text instead of other fixed text, when neither starts with an operator. -/
theorem lead_mark {qs : List Piece} {t u : String} (hx : fuses x) (ht : IsOpener t)
    (hu : IsOpener u) : HeadIs x (Piece.textOf s (.mark t :: qs)) ↔ HeadIs x u :=
  iff_of_false (not_headIs_mark hx ht) (not_headIs hx hu)

theorem isOperatorChar_of_fuses (hx : fuses x) : isOperatorChar x := by
  rw [fuses, Bool.and_eq_true, Bool.and_eq_true] at hx
  exact hx.1.1

/-! ### Letter case -/

/-- What holds of the operator characters that are no signs. -/
theorem fuses_cases (hx : fuses x) :
    (¬ (128 ≤ x.toNat ∨ (65 ≤ x.toNat ∧ x.toNat ≤ 90)) ∧ x ≠ '\x00' ∧ Text.upperLetter x = [x]) ∧
      ∀ c : Char, c.toLower = x ↔ c = x := by
  have hlist : ∀ y ∈ "+-*/<>=~!@#%^&|\x60?".toList,
      ¬ (128 ≤ y.toNat ∨ (65 ≤ y.toNat ∧ y.toNat ≤ 90)) ∧ y ≠ '\x00' ∧ Text.upperLetter y = [y] ∧
        ¬ (97 ≤ y.toNat ∧ y.toNat ≤ 122) := by
    decide
  rw [fuses, Bool.and_eq_true, Bool.and_eq_true, isOperatorChar, List.contains_iff_mem] at hx
  obtain ⟨hcapital, hzero, hself, hsmall⟩ := hlist x hx.1.1
  refine ⟨⟨hcapital, hzero, hself⟩, fun c => ?_⟩
  constructor
  · intro h
    have hcase := Text.toNat_toLower c
    rw [h] at hcase
    apply Char.toNat_inj.1
    split at hcase <;> omega
  · rintro rfl
    apply Char.toNat_inj.1
    rw [Text.toNat_toLower]
    split <;> omega

theorem headIs_upper (hx : fuses x) (word : String) : HeadIs x (Text.upper word) ↔ HeadIs x word := by
  obtain ⟨⟨hcapital, hzero, hself⟩, -⟩ := fuses_cases hx
  unfold HeadIs
  rw [Text.upper_toList]
  cases word.toList with
  | nil => rfl
  | cons c r =>
    obtain ⟨y, ys, hy⟩ := List.exists_cons_of_ne_nil (Text.upperLetter_ne_nil c)
    rw [List.flatMap_cons, hy]
    constructor
    · rintro ⟨⟩
      have hmem : x ∈ Text.upperLetter c := by simp [hy]
      rw [Text.eq_of_mem_upperLetter hcapital hzero hmem]
      rfl
    · rintro ⟨⟩
      rw [hself] at hy
      cases hy
      rfl

theorem headIs_asciiLower (hx : fuses x) (t : String) : HeadIs x (Text.asciiLower t) ↔ HeadIs x t := by
  unfold HeadIs Text.asciiLower
  rw [String.toList_ofList]
  cases t.toList with
  | nil => rfl
  | cons c r => simpa using (fuses_cases hx).2 c

theorem headIs_casedName (hx : fuses x) (c : NameCase) (name : String) :
    HeadIs x (casedName c name) ↔ HeadIs x name := by
  have hcase : Text.asciiLower (casedName c name) = Text.asciiLower name := by
    simpa [Text.eqIgnoreCase] using casedName_eqIgnoreCase c name
  rw [← headIs_asciiLower hx, hcase, headIs_asciiLower hx]

/-- A name starts with its first part. -/
theorem leaves_lead (hx : fuses x) (first : String) (r : List String) {ps : List Piece}
    (hps : ¬ HeadIs x (Piece.textOf s ps)) :
    HeadIs x (Piece.textOf s (Piece.leaves "." (first :: r) ++ ps)) ↔ HeadIs x first := by
  cases r with
  | nil => simpa [Piece.leaves, Piece.sepBy, Piece.text] using headIs_append hps
  | cons next r =>
    have hdot (qs : List Piece) : HeadIs x (Piece.textOf s ([.leaf first] ++ .mark "." :: qs)) ↔
        HeadIs x (Piece.textOf s [.leaf first]) := lead_append hx (by decide)
    simp only [Piece.leaves, Piece.sepBy, List.map_cons, List.append_assoc, List.cons_append]
    refine (hdot _).trans ?_
    simp [Piece.text]

/-- A call starts with the first part of its name. -/
theorem functionName_lead (hx : fuses x) (name : List String) (ps : List Piece) :
    HeadIs x (Piece.textOf s (functionName s name ++ .mark "(" :: ps)) ↔
      HeadIs x (name.head?.getD "(") := by
  have hparen : ¬ HeadIs x (Piece.textOf s (.mark "(" :: ps)) := not_headIs_mark hx (by decide)
  match name with
  | [] => exact lead_mark (u := "(") hx (by decide) (by decide)
  | [last] => exact (leaves_lead hx _ [] hparen).trans (headIs_casedName hx _ last)
  | first :: next :: r => exact leaves_lead hx first _ hparen

/-- The blank behind a sign comes in front of another sign only. -/
theorem signed_lead (hx : fuses x) (ps : List Piece) :
    HeadIs x (Piece.textOf s ((if startsWithSign s ps then [.mark " "] else []) ++ ps)) ↔
      HeadIs x (Piece.textOf s ps) := by
  have hsign : x ≠ '+' ∧ x ≠ '-' := by
    rw [fuses, Bool.and_eq_true, Bool.and_eq_true] at hx
    exact ⟨by simpa using hx.1.2, by simpa using hx.2⟩
  by_cases hps : startsWithSign s ps
  · rw [if_pos hps]
    refine iff_of_false (not_headIs_mark hx (by decide)) fun h => ?_
    unfold startsWithSign at hps
    rw [HeadIs, List.head?_eq_some_iff] at h
    obtain ⟨r, hr⟩ := h
    rw [hr] at hps
    split at hps
    · rename_i heq
      exact hsign.2 (List.cons.inj heq).1
    · rename_i heq
      exact hsign.1 (List.cons.inj heq).1
    · cases hps
  · rw [if_neg hps, List.nil_append]

/-! ### Expressions -/

mutual

/-- An expression starts with an operator if the phrase that it starts with does. -/
theorem expr_lead (hx : fuses x) : (e : Expr) → (d : Nat) → (isOperand : Bool) →
    (HeadIs x (Piece.textOf s (e.pieces s d isOperand)) ↔ HeadIs x (e.lead isOperand))
  | .column [] _, _, _ => by
    simp [Expr.pieces, columnPieces, Expr.lead, Piece.text]
  | .column (field :: r) wildcard, _, _ => by
    refine leaves_lead hx field r ?_
    cases wildcard with
    | false => exact nofun
    | true => exact not_headIs_mark hx (by decide)
  | .keyword word, _, _ => by
    simpa [Expr.pieces, Expr.lead, Piece.text] using headIs_upper hx word
  | .const c, _, _ => by
    simp [Expr.pieces, Expr.lead, Piece.text]
  | .param n, _, _ => by
    rw [Expr.pieces, Expr.lead, Piece.textOf_cons, Piece.text, String.append_assoc]
    exact iff_of_false (not_headIs_append hx rfl) (not_headIs hx rfl)
  | .call ⟨name, _, _, _, _, _, _, _⟩, d, _ => by
    simp only [Expr.pieces, Call.pieces, Expr.lead, List.append_assoc, List.cons_append]
    exact functionName_lead hx name _
  | .operation _ _ l _ _, d, _ => by
    simp only [Expr.pieces, Expr.lead, List.append_assoc, List.cons_append]
    exact (lead_append hx (by decide)).trans (expr_lead hx l d false)
  | .logic .not _, _, _ => lead_mark (u := "NOT") hx (by decide) (by decide)
  | .logic .and args, d, isOperand => by
    cases isOperand with
    | false => exact chain_lead hx .and args d
    | true => exact lead_mark (u := "(") hx (by decide) (by decide)
  | .logic .or args, d, isOperand => by
    cases isOperand with
    | false => exact chain_lead hx .or args d
    | true => exact lead_mark (u := "(") hx (by decide) (by decide)
  | .nullTest e t, d, _ => by
    cases t <;> exact (lead_append hx (by decide)).trans (expr_lead hx e d false)
  | .truthTest e t, d, _ => by
    cases t <;> exact (lead_append hx (by decide)).trans (expr_lead hx e d false)
  | .cast e _ _, d, _ => by
    simp only [Expr.pieces, Expr.lead, List.append_assoc, List.cons_append]
    exact (lead_append hx (by decide)).trans (expr_lead hx e d false)
  | .caseOf _ _ _, _, _ => lead_mark (u := "CASE") hx (by decide) (by decide)
  | .coalesce _, _, _ => lead_mark (u := "COALESCE") hx (by decide) (by decide)
  | .link kind test op negated q, d, _ => by
    simp only [Expr.pieces, Expr.lead, List.append_assoc, List.cons_append]
    refine test_lead hx op test d ?_
    cases negated with
    | false => cases kind <;> exact lead_mark hx (by decide) (by decide)
    | true => exact lead_mark (u := "NOT") hx (by decide) (by decide)
  | .inList e _ _, d, _ => by
    simp only [Expr.pieces, Expr.lead, List.append_assoc, List.cons_append]
    exact (lead_append hx (by decide)).trans (expr_lead hx e d false)
  | .between e _ _ _, d, _ => by
    simp only [Expr.pieces, Expr.lead, List.append_assoc, List.cons_append]
    exact (lead_append hx (by decide)).trans (expr_lead hx e d false)
  | .array _, _, _ => lead_mark (u := "ARRAY") hx (by decide) (by decide)
  | .unary op e, d, _ => by
    rw [Expr.pieces, Expr.lead, List.append_assoc, List.singleton_append, Piece.textOf_cons, Piece.text]
    by_cases hop : op.isEmpty
    · have hnil : op = "" := by simpa using hop
      rw [if_pos hop, hnil, String.empty_append]
      exact (signed_lead hx _).trans (expr_lead hx e d false)
    · rw [if_neg hop]
      exact headIs_append_of_ne (by simpa using hop)
  | .nested _, _, _ => lead_mark (u := "(") hx (by decide) (by decide)
  | .verbatim t, _, _ => by
    simp [Expr.pieces, Expr.lead, Piece.text]

/-- A chain starts with its first operand. -/
theorem chain_lead (hx : fuses x) (c : Connective) : (args : List Expr) → (d : Nat) →
    (HeadIs x (Piece.textOf s (chainPieces s d c args)) ↔ HeadIs x (firstLead args))
  | [], _ => by simp [chainPieces, firstLead]
  | [e], d => by
    simpa [chainPieces, chainRest, firstLead] using expr_lead hx e d true
  | e :: _ :: _, d => by
    simp only [chainPieces, chainRest, firstLead, List.append_assoc]
    exact (lead_newline hx _).trans (expr_lead hx e d true)

/-- A test starts with what is tested, if anything is. -/
theorem test_lead (hx : fuses x) (op : Option String) : (test : Option Expr) → (d : Nat) →
    {ps : List Piece} → {other : String} → (HeadIs x (Piece.textOf s ps) ↔ HeadIs x other) →
    (HeadIs x (Piece.textOf s (testPieces s d op test ++ ps)) ↔ HeadIs x (testLead other test))
  | none, _, _, _, hps => hps
  | some e, d, _, _, _ => by
    simp only [testPieces, testLead, List.append_assoc, List.cons_append]
    exact (lead_append hx (by decide)).trans (expr_lead hx e d false)

end

/-! ### Signs -/

/-- What stands behind a sign is no sign. -/
theorem not_signed (s : Style) (ps : List Piece) {c : Char} (hc : c = '+' ∨ c = '-') :
    ¬ HeadIs c (Piece.textOf s ((if startsWithSign s ps then [.mark " "] else []) ++ ps)) := by
  have hblank : ¬ HeadIs c " " := by
    obtain rfl | rfl := hc <;> rintro ⟨⟩
  by_cases hps : startsWithSign s ps
  · rw [if_pos hps]
    exact fun h => hblank ((headIs_append_of_ne (by decide)).1 h)
  · rw [if_neg hps, List.nil_append]
    intro h
    rw [HeadIs, List.head?_eq_some_iff] at h
    obtain ⟨r, hr⟩ := h
    refine hps ?_
    unfold startsWithSign
    rw [hr]
    obtain rfl | rfl := hc <;> rfl

/-- A minus sign in front of anything but the head of an arrow. -/
theorem symbol_minus {c : Char} (hc : c ≠ '>') (r : List Char) :
    Sql.Lexer.symbol ('-' :: c :: r) = some (Sql.Lexer.open_ "-" (c :: r)) := by
  unfold Sql.Lexer.symbol
  -- first go the operators that start with another character
  split <;> first | (rename_i heq; exact absurd (List.cons.inj heq).1 (by decide)) | skip
  · rename_i heq
    exact absurd (List.cons.inj (List.cons.inj heq).2).1 hc
  · rename_i heq
    exact absurd (List.cons.inj (List.cons.inj heq).2).1 hc
  · rename_i heq
    rw [(List.cons.inj heq).2]
  · exact (‹∀ r', '-' :: c :: r = '-' :: r' → False› _ rfl).elim

/-- A sign that no operator character follows is read as itself. -/
theorem symbol_sign {op : String} (hop : op = "+" ∨ op = "-") {r : List Char}
    (hr : r.head?.any isOperatorChar = false) :
    Sql.Lexer.symbol (op.toList ++ r) = some (.ok (.symbol op, r)) := by
  obtain rfl | rfl := hop
  · rfl
  · cases r with
    | nil => rfl
    | cons c r =>
      have hc : isOperatorChar c = false := hr
      have harrow : c ≠ '>' := by
        rintro rfl
        exact absurd hc (by decide)
      have hnone : (c :: r).takeWhile isOperatorChar = [] := List.takeWhile_cons_of_neg (by simp [hc])
      refine (symbol_minus harrow r).trans ?_
      simp only [Sql.Lexer.open_, Sql.Lexer.operatorOr, hnone]

/-- A sign stands apart from its operand, and is read as itself, unless the operand starts with an
operator. -/
theorem unary_apart_iff {e : Sql.Expr} {x : Expr} (h : (readingOf e).whole = .ok x) {op : String}
    {arg : Expr} (harg : .expr (.unary op arg) ∈ x.nodes) :
    (op = "+" ∨ op = "-") ∧ ∀ (s : Style) (d : Nat) (isOperand : Bool), ∃ rest : List Char,
      (Piece.textOf s ((Expr.unary op arg).pieces s d isOperand)).toList = op.toList ++ rest ∧
      (rest.head?.any isOperatorChar = false ↔ (arg.lead false).toList.head?.any fuses = false) ∧
      (rest.head?.any isOperatorChar = false →
        Sql.Lexer.symbol (op.toList ++ rest) = some (.ok (.symbol op, rest))) := by
  have hop : op = "+" ∨ op = "-" := (readingOf_sound e).whole x h _ harg
  refine ⟨hop, fun s d isOperand => ?_⟩
  generalize hps : arg.pieces s d false = ps
  have hlead {c : Char} (hc : fuses c) := (signed_lead (s := s) hc ps).trans (hps ▸ expr_lead hc arg d false)
  refine ⟨(Piece.textOf s ((if startsWithSign s ps then [.mark " "] else []) ++ ps)).toList, ?_, ?_,
    symbol_sign hop⟩
  · rw [Expr.pieces, hps, List.append_assoc, List.singleton_append, Piece.textOf_cons, Piece.text,
      String.toList_append]
  · rw [← not_iff_not, Bool.not_eq_false, Bool.not_eq_false, Option.any_eq_true, Option.any_eq_true]
    constructor
    · rintro ⟨c, hhead, hc⟩
      have hplus : c ≠ '+' := fun heq => not_signed s ps (.inl heq) hhead
      have hminus : c ≠ '-' := fun heq => not_signed s ps (.inr heq) hhead
      have hfuses : fuses c := by simp [fuses, hc, hplus, hminus]
      exact ⟨c, (hlead hfuses).1 hhead, hfuses⟩
    · rintro ⟨c, hhead, hc⟩
      exact ⟨c, (hlead hc).2 hhead, isOperatorChar_of_fuses hc⟩

/-- `- -a` -/
theorem unary_apart_minus :
    (readingOf (.unary .minus (.unary .minus (.ident ⟨"a", none⟩)))).whole =
        .ok (.unary "-" (.unary "-" (.column ["a"] false))) ∧
      ∀ (s : Style) (d : Nat) (isOperand : Bool), ∃ rest : List Char,
        (Piece.textOf s ((Expr.unary "-" (.unary "-" (.column ["a"] false))).pieces s d isOperand)).toList =
            "-".toList ++ rest ∧
        (rest.head?.any isOperatorChar = false ↔ "-".toList.head?.any fuses = false) ∧
        (rest.head?.any isOperatorChar = false →
          Sql.Lexer.symbol ("-".toList ++ rest) = some (.ok (.symbol "-", rest))) := by
  have hrun : (readingOf (.unary .minus (.unary .minus (.ident ⟨"a", none⟩)))).whole =
      .ok (.unary "-" (.unary "-" (.column ["a"] false))) := rfl
  exact ⟨hrun, (unary_apart_iff hrun List.mem_cons_self).2⟩

/-- A minus sign and a prefix operator right behind it. -/
theorem prefix_operator_fuses :
    ¬ ∀ (e : Sql.Expr) (x : Expr), (readingOf e).whole = .ok x → ∀ op arg,
      .expr (.unary op arg) ∈ x.nodes → ∀ (s : Style) (d : Nat) (isOperand : Bool),
        ((Piece.textOf s ((Expr.unary op arg).pieces s d isOperand)).toList.drop op.length).head?.any
          isOperatorChar = false := by
  intro h
  have hnext := h (.unary .minus (.phrase "~a")) (.unary "-" (.verbatim "~a")) rfl "-" _
    List.mem_cons_self {} 0 false
  exact absurd hnext (by decide)

end SqlLayout.Layout
