import SqlLayout.Proofs.Rereading.Readability
import SqlLayout.Proofs.Grouping

/-!
The tokens of what is written for the names, the constants and the signs of a readable tree.
-/

namespace SqlLayout.Sql.Lexer

variable {cs w f : List Char} {ts : List Token}

/-! ### Numbers -/

theorem digits_all (hw : w.all Char.isDigit = true) (hcs : ∀ c ∈ cs.head?, c ∈ '.' :: numeralEnds) :
    digits Char.isDigit (w ++ cs) = (w, cs) := by
  have hends : ∀ c ∈ '.' :: numeralEnds, endsDigits c = true := by decide
  exact digits_append hw fun c hc => hends c (hcs c hc)

theorem exponent_none (hcs : EndsNumeral cs) : exponent cs = ([], cs) := by
  cases cs with
  | nil => rfl
  | cons c r =>
    have hends : ∀ c ∈ numeralEnds, (c == 'e' || c == 'E') = false := by decide
    simp only [exponent, hends c (hcs c rfl), Bool.false_eq_true, if_false]

/-- What ends a number is neither a point nor a letter. -/
theorem EndsNumeral.cases (hcs : EndsNumeral cs) :
    cs = [] ∨ ∃ c r, cs = c :: r ∧ (c = ' ' ∨ c = '\n' ∨ c = ')' ∨ c = ',' ∨ c = ';' ∨ c = ':') := by
  cases cs with
  | nil => exact .inl rfl
  | cons c r => exact .inr ⟨c, r, rfl, by simpa [numeralEnds] using hcs c rfl⟩

theorem ne_point_of_digit {c : Char} (hc : c.isDigit = true) : c ≠ '.' := by
  rintro rfl
  exact absurd hc (by decide)

theorem number_whole {b : Bool} {c : Char} (hc : c.isDigit = true) (hw : w.all Char.isDigit = true)
    (hcs : EndsNumeral cs) : number b (c :: (w ++ cs)) =
      .ok (.number (String.ofList (c :: w)) false, cs) := by
  have hall : (c :: w).all Char.isDigit = true := by rw [List.all_cons, hc, hw, Bool.true_and]
  have hwhole : digits Char.isDigit (c :: (w ++ cs)) = (c :: w, cs) :=
    digits_all hall fun d hd => List.mem_cons_of_mem _ (hcs d hd)
  have hempty : digits Char.isDigit cs = ([], cs) :=
    digits_all (w := []) rfl fun d hd => List.mem_cons_of_mem _ (hcs d hd)
  have hstart : pointBeforeName b (c :: (w ++ cs)) = none := by
    unfold pointBeforeName
    split
    · rename_i heq
      exact absurd (List.cons.inj heq).1 (ne_point_of_digit hc)
    · rfl
  have hmantissa : (c :: w == ['.']) = false := by
    rw [beq_eq_false_iff_ne]
    exact fun heq => ne_point_of_digit hc (List.cons.inj heq).1
  rw [number, hstart]
  simp only [hwhole]
  obtain rfl | ⟨d, r, rfl, hd⟩ := hcs.cases
  · simp only [hempty, List.append_nil, hmantissa, exponent_none hcs, Bool.false_eq_true, if_false]
  · obtain rfl | rfl | rfl | rfl | rfl | rfl := hd <;> simp [hempty, hmantissa, exponent_none hcs]

theorem number_decimal {b : Bool} {c : Char} (hc : c.isDigit = true) (hw : w.all Char.isDigit = true)
    (hf : f.all Char.isDigit = true) (hcs : EndsNumeral cs) :
    number b (c :: (w ++ '.' :: (f ++ cs))) =
      .ok (.number (String.ofList (c :: (w ++ '.' :: f))) false, cs) := by
  have hall : (c :: w).all Char.isDigit = true := by rw [List.all_cons, hc, hw, Bool.true_and]
  have hwhole : digits Char.isDigit (c :: (w ++ '.' :: (f ++ cs))) = (c :: w, '.' :: (f ++ cs)) :=
    digits_all hall (by rintro _ ⟨⟩; exact List.mem_cons_self)
  have hfraction : digits Char.isDigit (f ++ cs) = (f, cs) :=
    digits_all hf fun d hd => List.mem_cons_of_mem _ (hcs d hd)
  have hstart : pointBeforeName b (c :: (w ++ '.' :: (f ++ cs))) = none := by
    unfold pointBeforeName
    split
    · rename_i heq
      exact absurd (List.cons.inj heq).1 (ne_point_of_digit hc)
    · rfl
  have hmantissa : (c :: w ++ ['.'] ++ f == ['.']) = false := by
    rw [beq_eq_false_iff_ne]
    exact fun heq => ne_point_of_digit hc (List.cons.inj heq).1
  rw [number, hstart]
  simp only [hwhole, hfraction, hmantissa, exponent_none hcs, Bool.false_eq_true, if_false]
  have htext : c :: w ++ ['.'] ++ f ++ [] = c :: (w ++ '.' :: f) := by simp
  rw [htext]
  obtain rfl | ⟨d, r, rfl, hd⟩ := hcs.cases
  · simp
  · obtain rfl | rfl | rfl | rfl | rfl | rfl := hd <;> simp

theorem digit_bounds {c : Char} (hc : c.isDigit = true) : 48 ≤ c.toNat ∧ c.toNat ≤ 57 := by
  simp only [Char.isDigit, Bool.and_eq_true, decide_eq_true_eq, UInt32.le_iff_toNat_le, ge_iff_le] at hc
  exact hc

theorem token_digit {c : Char} (hc : c.isDigit = true) (afterWord : Bool) (r : List Char) :
    Lexer.token afterWord c r = number afterWord (c :: r) := by
  have hne {d : Char} (hd : d.isDigit = false) : c ≠ d := by
    rintro rfl
    rw [hc] at hd
    cases hd
  have hintroduced : introduced c r = none := by
    refine introduced_other (fun hmem => ?_) r
    have hletters : ∀ d ∈ "bBnNxXeEuU".toList, d.isDigit = false := by decide
    rw [hletters c hmem] at hc
    cases hc
  rw [Lexer.token, hintroduced]
  simp only [beq_iff_eq, hne (show '\x27'.isDigit = false by decide),
    hne (show '"'.isDigit = false by decide), hc, Bool.true_or, if_true, if_false]

theorem blank_digit {c : Char} (hc : c.isDigit = true) (r : List Char) : blank (c :: r) = none := by
  refine blank_none (Nat.le_trans (by decide) (digit_bounds hc).1) (fun hmem => ?_) r
  have hplain : ∀ d ∈ [' ', '-', '/'], d.isDigit = false := by decide
  rw [hplain c hmem] at hc
  cases hc

theorem Runs.numeral {t : String} (ht : Layout.isNumeral t = true) (hcs : EndsNumeral cs)
    (h : Runs cs ts) : Runs (t.toList ++ cs) (.number t false :: ts) := by
  have hdigits : (t.toList.takeWhile Char.isDigit).all Char.isDigit = true := List.all_takeWhile
  have hsplit := List.takeWhile_append_dropWhile (p := Char.isDigit) (l := t.toList)
  have htext := String.ofList_toList (s := t)
  rw [Layout.isNumeral, Bool.and_eq_true] at ht
  obtain ⟨hne, hrest⟩ := ht
  generalize t.toList.takeWhile Char.isDigit = w at hdigits hne hsplit
  generalize t.toList.dropWhile Char.isDigit = r at hrest hsplit
  cases w with
  | nil => cases hne
  | cons c w =>
    rw [List.all_cons, Bool.and_eq_true] at hdigits
    obtain ⟨hc, hw⟩ := hdigits
    rw [← hsplit] at htext ⊢
    split at hrest
    · rw [List.append_nil] at htext ⊢
      rw [← htext]
      refine Runs.token (blank_digit hc _) (fun b => ?_) (by simp) h
      exact (token_digit hc b _).trans (number_whole hc hw hcs)
    · rename_i f
      rw [Bool.and_eq_true] at hrest
      rw [← htext]
      have htoken (b : Bool) : Lexer.token b c (w ++ '.' :: f ++ cs) =
          .ok (.number (String.ofList (c :: (w ++ '.' :: f))) false, cs) := by
        rw [List.append_assoc, List.cons_append]
        exact (token_digit hc b _).trans (number_decimal hc hw hrest.2 hcs)
      exact Runs.token (blank_digit hc _) htoken (by simp) h
    · cases hrest

/-! ### Constants between quotes -/

/-- A text whose quotes are doubled ends where a quote stands alone. -/
theorem untilQuote_doubled (t : List Char) (hcs : ∀ c ∈ cs.head?, c ≠ '\x27') :
    untilQuote '\x27' false (Text.replaceFrom ['\x27'] ['\x27', '\x27'] 0 t ++ '\x27' :: cs) =
      some (t, cs) := by
  rw [Text.replaceFrom_singleton]
  induction t with
  | nil =>
    cases cs with
    | nil => rfl
    | cons c r => simp [untilQuote, hcs c rfl]
  | cons c t ih =>
    by_cases hc : c = '\x27'
    · subst hc
      simp [untilQuote, ih]
    · have hstep (r : List Char) : untilQuote '\x27' false (c :: r) =
          (untilQuote '\x27' false r).map fun p => (c :: p.1, p.2) := by
        rw [untilQuote.eq_def]
        simp [hc]
      rw [List.flatMap_cons, if_neg hc, List.append_assoc, List.singleton_append, hstep, ih]
      rfl

theorem Runs.string (t : String) (hcs : EndsNumeral cs) (h : Runs cs ts) :
    Runs ((Layout.Const.string t).text.toList ++ cs) (.quoted .plain t :: ts) := by
  have htext : (Layout.Const.string t).text.toList =
      '\x27' :: (Text.replaceFrom ['\x27'] ['\x27', '\x27'] 0 t.toList ++ ['\x27']) := by
    simp [Layout.Const.text, Text.replaceAll]
  rw [htext, List.cons_append]
  refine Runs.token rfl (fun b => ?_) (by simp) h
  have hends : ∀ c ∈ numeralEnds, c ≠ '\x27' := by decide
  have huntil := untilQuote_doubled t.toList fun c hc => hends c (hcs c hc)
  have hquoted : quoted .plain '\x27' false
      ('\x27' :: (Text.replaceFrom ['\x27'] ['\x27', '\x27'] 0 t.toList ++ ['\x27'] ++ cs)) =
        .ok (.quoted .plain t, cs) := by
    rw [quoted, List.drop_one, List.tail_cons, List.append_assoc, List.singleton_append, huntil]
    simp
  exact hquoted

/-! ### Signs -/

theorem Runs.cast (h : Runs cs ts) : Runs (':' :: ':' :: cs) (.symbol "::" :: ts) :=
  Runs.token (r := [':']) rfl (fun _ => rfl) (by decide) h

/-- A sign in front of what starts with no operator. -/
theorem Runs.prefixed {op : String} (hop : op = "+" ∨ op = "-")
    (hcs : cs.head?.any isOperatorChar = false) (h : Runs cs ts) :
    Runs (op.toList ++ cs) (.symbol op :: ts) := by
  have hsymbol := Layout.symbol_sign hop hcs
  obtain rfl | rfl := hop
  · exact Runs.punctuation (by decide) h
  · have hblank : blank ('-' :: ([] ++ cs)) = none := by
      cases cs with
      | nil => rfl
      | cons c r =>
        have hminus : c ≠ '-' := by
          rintro rfl
          cases hcs
        unfold blank
        split
        · rename_i heq
          injection heq with _ heq
          injection heq with heq
          exact absurd heq hminus
        · rename_i heq
          injection heq with heq
          exact absurd heq (by decide)
        · rename_i heq
          injection heq with hc
          subst hc
          rfl
        · rfl
    refine Runs.token (r := []) hblank (fun b => ?_) (by decide) h
    have htoken : Lexer.token b '-' cs = .ok (.symbol "-", cs) := by
      have hread : Lexer.symbol ('-' :: cs) = some (.ok (.symbol "-", cs)) := hsymbol
      rw [Lexer.token, introduced_other (by decide)]
      simp only [hread]
      rfl
    exact htoken

end SqlLayout.Sql.Lexer

namespace SqlLayout.Layout

open Sql (Token)
open Sql.Lexer (Runs isWord numeralEnds)
open Sql.Parser (Listed dotted points bare)

variable {s : Style} {a b : Edge} {ps qs : List Piece} {pss : List (List Piece)} {ts us : List Token}
  {tss : List (List Token)} {w : String}

namespace Spelled

theorem loosen (h : Spelled s .bare b ps ts) : Spelled s .fenced b ps ts :=
  .of_runs fun cs us hcs hus => (h cs us hcs hus).1

theorem tighten (h : Spelled s a .fenced ps ts) : Spelled s a .bare ps ts :=
  fun cs us _ hus => h cs us trivial hus

/-- Fixed text without letters. -/
theorem empty (a : Edge) : Spelled s a a [.mark ""] [] := by
  intro cs us hcs hus
  exact ⟨by simpa [Piece.text] using hus, by simpa [Piece.text] using hcs⟩

/-- A text of the tree that is written like fixed text. -/
theorem leaf (h : Spelled s a b [.mark w] ts) : Spelled s a b [.leaf w] ts :=
  h

end Spelled

theorem spelled_word (hw : isWord w.toList = true) : Spelled s .fenced .bare [.leaf w] [.word w] := by
  refine .of_runs fun cs us hcs hus => ?_
  have hends : ∀ c ∈ numeralEnds, c ∈ Sql.Lexer.endChars := by decide
  simpa [Piece.text] using Runs.word hw (fun c hc => hends c (hcs c hc)) hus

theorem spelled_numeral (hw : isNumeral w = true) :
    Spelled s .fenced .bare [.leaf w] [.number w false] := by
  refine .of_runs fun cs us hcs hus => ?_
  simpa [Piece.text] using Runs.numeral hw hcs hus

theorem spelled_string (t : String) :
    Spelled s .fenced .bare [.leaf (Const.string t).text] [.quoted .plain t] := by
  refine .of_runs fun cs us hcs hus => ?_
  rw [Piece.textOf_cons, Piece.textOf_nil, String.append_empty, Piece.text]
  exact Runs.string t hcs hus

theorem spelled_cast : Spelled s .bare .fenced [.mark "::"] [.symbol "::"] := by
  intro cs us _ hus
  have hcolon : ':' ∈ numeralEnds := by decide
  exact ⟨by simpa [Piece.text] using Runs.cast hus, by simpa [Piece.text] using accepts_cons hcolon _⟩

theorem spelled_star : Spelled s .fenced .fenced [.mark "*"] [.symbol "*"] := by
  refine .of_runs fun cs us _ hus => ?_
  have hstar : Runs ('*' :: cs) (.symbol "*" :: us) := .punctuation (by decide) hus
  simpa [Piece.text] using hstar

/-- The sign before an operand. -/
theorem spelled_prefixed {op : String} (hop : op = "+" ∨ op = "-") (h : Spelled s .fenced b ps ts)
    (hps : ∀ cs, ((Piece.textOf s ps).toList ++ cs).head?.any Sql.Lexer.isOperatorChar = false) :
    Spelled s .fenced b (.leaf op :: ps) (.symbol op :: ts) := by
  refine .of_runs fun cs us hcs hus => ?_
  rw [Piece.textOf_cons, Piece.text, String.toList_append, List.append_assoc]
  exact Runs.prefixed hop (hps cs) (h cs us hcs hus).1

theorem pathTokens_dotted (w : String) (ws : List String) :
    pathTokens false (w :: ws) = dotted w ws := by
  induction ws generalizing w with
  | nil => rfl
  | cons v ws ih =>
    rw [pathTokens, ih]
    · rfl
    · exact List.cons_ne_nil v ws

theorem spelled_path {ws : List String} (hw : isWord w.toList = true)
    (hws : ∀ v ∈ ws, isWord v.toList = true) :
    Spelled s .fenced .bare (columnPieces (w :: ws) false) (dotted w ws) := by
  rw [← pathTokens_dotted]
  exact spelled_column false (List.cons_ne_nil _ _) (List.forall_mem_cons.2 ⟨hw, hws⟩)

/-! ### Lists -/

/-- Tokens with commas between them. -/
def commaTokens : List (List Token) → List Token
  | [] => []
  | [ts] => ts
  | ts :: us :: r => ts ++ .symbol "," :: commaTokens (us :: r)

/-- Pieces that are each read as tokens. -/
abbrev EachSpelled (s : Style) : List (List Piece) → List (List Token) → Prop :=
  List.Forall₂ (Spelled s .fenced .bare)

theorem EachSpelled.sepBy {separator : List Piece}
    (hseparator : Spelled s .bare .fenced separator [.symbol ","])
    (h : EachSpelled s pss tss) : Spelled s .fenced .bare (Piece.sepBy separator pss)
      (commaTokens tss) := by
  induction h with
  | nil => exact (Spelled.nil s .fenced).tighten
  | @cons ps ts pss tss hps h ih =>
    cases h with
    | nil => exact hps
    | cons hqs h => simpa [Piece.sepBy, commaTokens] using (hps.append hseparator).append ih

theorem spelled_comma : Spelled s .bare .fenced [.mark ", "] [.symbol ","] := Spelled.mark (by decide)

theorem EachSpelled.commas (h : EachSpelled s pss tss) :
    Spelled s .fenced .bare (Piece.commas pss) (commaTokens tss) :=
  h.sepBy spelled_comma

/-- Groups on lines of their own. -/
theorem EachSpelled.lines (depth : Nat) (h : EachSpelled s pss tss) (hne : tss ≠ []) :
    Spelled s .bare .bare (Piece.sepBy [.mark ","] (pss.map (Piece.newline depth ++ ·)))
      (commaTokens tss) := by
  have hcomma : Spelled s .bare .bare [.mark ","] [.symbol ","] := Spelled.mark (by decide)
  induction h with
  | nil => exact absurd rfl hne
  | @cons ps ts pss tss hps h ih =>
    have hline : Spelled s .bare .bare (Piece.newline depth ++ ps) ts :=
      (spelled_newline s depth).append hps
    cases h with
    | nil => exact hline
    | cons hqs h =>
      simpa [Piece.sepBy, commaTokens] using (hline.append hcomma).append (ih (List.cons_ne_nil _ _))

theorem listed_commaTokens {α : Type} {P : List Token → α → Prop} {as : List α}
    (h : List.Forall₂ P tss as) (hne : as ≠ []) : Listed P (commaTokens tss) as := by
  induction h with
  | nil => exact absurd rfl hne
  | @cons ts a tss as hts h ih =>
    cases h with
    | nil => exact .one hts
    | cons hus h => exact .cons hts (ih (List.cons_ne_nil _ _))

end SqlLayout.Layout
