import Mathlib
import SqlLayout.Layout.OfSql
import SqlLayout.Proofs.Spelling

/-!
The grouping of conditions in the text. `NOT` binds more tightly than `AND`, and `AND` more tightly than
`OR`; a text that is read in this way gives back the condition that was laid out.
-/

namespace SqlLayout.Layout

open Sql (Token)
open Sql.Lexer (keyOf Runs isWord)

/-! ### Reading conditions -/

/-- How tightly a connective binds its operands. -/
def Connective.strength : Connective → Nat
  | .or => 1
  | .and => 2
  | .not => 3

/-- The operands that a condition brings to a chain. -/
def Expr.operands (c : Connective) : Expr → List Expr
  | .logic c' args => if c' = c then args else [.logic c' args]
  | e => [e]

/-- Two conditions with a connective between them. Chains of the connective become one. -/
def Expr.joined (c : Connective) (l r : Expr) : Expr :=
  .logic c (l.operands c ++ r.operands c)

namespace Grouping

/-- The words that are no names in a condition. -/
def keywords : List String :=
  ["AND", "OR", "NOT", "IS", "NULL"]

/-- The signs of comparisons. Each is the text of one token, and `<>` is that of both of its spellings. -/
def comparisons : List String :=
  ["=", "<>", "<", "<=", ">", ">="]

def isName (w : String) : Bool :=
  isWord w.toList && !keywords.contains (keyOf (.word w))

def connective? (t : Token) : Option Connective :=
  if keyOf t = "AND" then some .and else if keyOf t = "OR" then some .or else none

def comparison? : Token → Option String
  | .symbol s => if comparisons.contains s then some s else none
  | _ => none

/-- The names of a column, whether a star comes after them, and the tokens that are left. -/
def readNames : List Token → Option (List String × Bool × List Token)
  | .word w :: r =>
    if keywords.contains (keyOf (.word w)) then none
    else match r with
      | .symbol "." :: .symbol "*" :: left => some ([w], true, left)
      | .symbol "." :: r => (readNames r).map fun (ws, star, left) => (w :: ws, star, left)
      | left => some ([w], false, left)
  | _ => none

/-- A column or a parameter. -/
def readReference : List Token → Option (Expr × List Token)
  | .placeholder p :: r => (paramNumber? p).map (.param ·, r)
  | ts => (readNames ts).map fun (ws, star, left) => (.column ws star, left)

/-- A reference or a comparison of two. -/
def readComparison (ts : List Token) : Option (Expr × List Token) := do
  let (l, r) ← readReference ts
  match comparison? (r.headD .eof) with
  | some op =>
    let (x, left) ← readReference r.tail
    return (.operation .none op l x none, left)
  | none => return (l, r)

/-- What stands after `IS`. -/
def readTest : List Token → Option (NullTest × List Token)
  | t :: r =>
    if keyOf t = "NULL" then some (.isNull, r)
    else if keyOf t = "NOT" ∧ keyOf (r.headD .eof) = "NULL" then some (.isNotNull, r.tail)
    else none
  | [] => none

/-- A comparison or a test of one. -/
def readPredicate (ts : List Token) : Option (Expr × List Token) := do
  let (x, r) ← readComparison ts
  if keyOf (r.headD .eof) = "IS" then
    let (test, left) ← readTest r.tail
    return (.nullTest x test, left)
  else return (x, r)

mutual

/-- A condition whose connectives bind more tightly than `p`; the first argument bounds the steps. -/
def above : Nat → Nat → List Token → Option (Expr × List Token)
  | 0, _, _ => none
  | n + 1, p, ts => do
    let (x, r) ← operand n ts
    climb n p x r

/-- A predicate, a negation or a condition in parentheses. -/
def operand : Nat → List Token → Option (Expr × List Token)
  | 0, _ => none
  | _, [] => none
  | n + 1, t :: ts =>
    if t = .symbol "(" then do
      let (x, r) ← above n 0 ts
      match r with
      | .symbol ")" :: left => return (x, left)
      | _ => none
    else if keyOf t = "NOT" then do
      let (x, left) ← operand n ts
      return (.logic .not [x], left)
    else readPredicate (t :: ts)

/-- What has been read, with the connectives and operands after it. -/
def climb : Nat → Nat → Expr → List Token → Option (Expr × List Token)
  | 0, _, _, _ => none
  | _, _, x, [] => some (x, [])
  | n + 1, p, x, t :: ts =>
    match connective? t with
    | some c =>
      if p < c.strength then do
        let (y, r) ← above n c.strength ts
        climb n p (x.joined c y) r
      else some (x, t :: ts)
    | none => some (x, t :: ts)

end

end Grouping

/-- The condition that a text is, if it is one. -/
def readCondition? (text : String) : Option Expr :=
  match Sql.tokens text with
  | .error _ => none
  | .ok ls =>
    let ts := ls.map Sql.Lexeme.token
    match Grouping.above (2 * ts.length + 1) 0 ts with
    | some (x, [.eof]) => some x
    | _ => none

/-! ### Conditions that are laid out -/

namespace Grouping

/-- A column with plain names, or a parameter. -/
inductive IsReference : Expr → Prop
  | column {ws : List String} (star : Bool) (hne : ws ≠ []) (hws : ∀ w ∈ ws, isName w) :
    IsReference (.column ws star)
  | param {n : Nat} (hn : n < 2 ^ 32) : IsReference (.param n)

/-- A reference or a comparison of two. -/
inductive IsComparison : Expr → Prop
  | reference {e : Expr} (h : IsReference e) : IsComparison e
  | comparison {op : String} {l r : Expr} (hop : op ∈ comparisons) (hl : IsReference l)
    (hr : IsReference r) : IsComparison (.operation .none op l r none)

/-- A comparison or a test of one. -/
inductive IsPredicate : Expr → Prop
  | comparison {e : Expr} (h : IsComparison e) : IsPredicate e
  | nullTest {e : Expr} (test : NullTest) (h : IsComparison e) : IsPredicate (.nullTest e test)

/-- A condition without parentheses whose chains are as large as they can be. -/
inductive IsCondition : Expr → Prop
  | predicate {e : Expr} (h : IsPredicate e) : IsCondition e
  | not {e : Expr} (h : IsCondition e) : IsCondition (.logic .not [e])
  | chain {c : Connective} {args : List Expr} (hc : c ≠ .not) (hlength : 2 ≤ args.length)
    (hargs : ∀ e ∈ args, IsCondition e) (hflat : ∀ e ∈ args, ∀ es, e ≠ .logic c es) :
    IsCondition (.logic c args)

/-! ### Tokens of the text -/

variable {s : Style} {ps qs : List Piece} {ts us : List Token}

/-! ### References -/

/-- The tokens of a reference. -/
def referenceTokens : Expr → List Token
  | .column ws star => pathTokens star ws
  | .param n => [.placeholder ("$" ++ toString n)]
  | _ => []

theorem isName_isWord {w : String} (h : isName w) : isWord w.toList := by
  simp only [isName, Bool.and_eq_true] at h
  exact h.1

theorem isName_key {w : String} (h : isName w) : keyOf (.word w) ∉ keywords := by
  simp only [isName, Bool.and_eq_true, Bool.not_eq_true', List.contains_eq_mem,
    decide_eq_false_iff_not] at h
  exact h.2

theorem IsReference.spells {e : Expr} (h : IsReference e) (d : Nat) (b : Bool) :
    Spelled s .fenced .bare (e.pieces s d b) (referenceTokens e) := by
  cases h with
  | column star hne hws => exact spelled_column star hne fun w hw => isName_isWord (hws w hw)
  | param => exact spelled_param _

/-- The texts of numbers are read as these numbers. -/
theorem paramNumber_toString {n : Nat} (hn : n < 2 ^ 32) : paramNumber? ("$" ++ toString n) = some n := by
  have hrepr : toString n = String.ofList (Nat.toDigits 10 n) := Nat.repr_eq_ofList_toDigits
  have hdigits : (Nat.toDigits 10 n).all Char.isDigit := by
    rw [List.all_eq_true]
    exact fun c hc => Nat.isDigit_of_mem_toDigits (by decide) (by decide) hc
  have hvalue : (Nat.toDigits 10 n).foldl (fun n c => n * 10 + (c.toNat - 48)) 0 = n := by
    have hfold := Nat.ofDigitChars_toDigits (b := 10) (n := n) (by decide) (by decide)
    rw [Nat.ofDigitChars_eq_foldl] at hfold
    simpa [Nat.mul_comm] using hfold
  have hlist : ("$" ++ toString n).toList = '$' :: Nat.toDigits 10 n := by simp [hrepr]
  have hsize : n < UInt32.size := hn
  rw [paramNumber?, hlist]
  simp only [hdigits, hvalue, List.isEmpty_eq_false_iff.2 Nat.toDigits_ne_nil, Bool.not_true, Bool.or_false,
    Bool.false_eq_true, if_false, if_pos hsize]

theorem readNames_single {w : String} (hw : isName w) (hus : us.headD .eof ≠ .symbol ".") :
    readNames (.word w :: us) = some ([w], false, us) := by
  rw [readNames, if_neg (by simpa using isName_key hw)]
  · rintro left rfl
    exact hus rfl
  · rintro left rfl
    exact hus rfl

theorem readNames_star {w : String} (hw : isName w) :
    readNames (.word w :: .symbol "." :: .symbol "*" :: us) = some ([w], true, us) := by
  rw [readNames, if_neg (by simpa using isName_key hw)]

theorem readNames_cons {w v : String} (hw : isName w) :
    readNames (.word w :: .symbol "." :: .word v :: us) =
      (readNames (.word v :: us)).map fun (ws, star, left) => (w :: ws, star, left) := by
  rw [readNames, if_neg (by simpa using isName_key hw)]
  rintro left ⟨⟩

theorem pathTokens_cons (star : Bool) (w : String) (ws : List String) :
    ∃ vs, pathTokens star (w :: ws) = .word w :: vs := by
  cases ws <;> exact ⟨_, rfl⟩

theorem readNames_path {ws : List String} (star : Bool) (hne : ws ≠ []) (hws : ∀ w ∈ ws, isName w)
    (hus : us.headD .eof ≠ .symbol ".") : readNames (pathTokens star ws ++ us) = some (ws, star, us) := by
  induction ws with
  | nil => exact absurd rfl hne
  | cons w ws ih =>
    have hw := hws w List.mem_cons_self
    cases ws with
    | nil =>
      cases star with
      | true => exact readNames_star hw
      | false => exact readNames_single hw hus
    | cons v ws =>
      have hrest := ih (by simp) (fun x hx => hws x (List.mem_cons_of_mem w hx))
      obtain ⟨vs, hvs⟩ := pathTokens_cons star v ws
      rw [pathTokens, hvs] <;> try simp
      rw [hvs, List.cons_append] at hrest
      rw [readNames_cons hw, hrest]
      rfl

/-- Whatever follows a reference, other than a point. -/
theorem IsReference.reads {e : Expr} (h : IsReference e) (hus : us.headD .eof ≠ .symbol ".") :
    readReference (referenceTokens e ++ us) = some (e, us) := by
  cases h with
  | param hn =>
    simp only [referenceTokens, List.cons_append, List.nil_append, readReference, paramNumber_toString hn]
    rfl
  | @column ws star hne hws =>
    have hnames := readNames_path star hne hws hus
    cases ws with
    | nil => exact absurd rfl hne
    | cons w ws =>
      obtain ⟨vs, hvs⟩ := pathTokens_cons star w ws
      simp only [referenceTokens, hvs, List.cons_append] at hnames ⊢
      simp only [readReference, hnames]
      rfl

/-! ### Predicates -/

/-- The tokens of a comparison. -/
def comparisonTokens : Expr → List Token
  | .operation _ op l r _ => referenceTokens l ++ .symbol op :: referenceTokens r
  | e => referenceTokens e

/-- The tokens of a test. -/
def testTokens : NullTest → List Token
  | .isNull => [.word "IS", .word "NULL"]
  | .isNotNull => [.word "IS", .word "NOT", .word "NULL"]

/-- The tokens of a predicate. -/
def predicateTokens : Expr → List Token
  | .nullTest e test => comparisonTokens e ++ testTokens test
  | e => comparisonTokens e

theorem spelled_comparison {op : String} (hop : op ∈ comparisons) :
    Spelled s .bare .fenced [.mark " ", .leaf (operatorText op), .mark " "] [.symbol op] :=
  spelled_sign ((by decide : comparisons ⊆ Sql.Lexer.writtenSigns.map (·.2.2)) hop)

theorem IsComparison.spells {e : Expr} (h : IsComparison e) (d : Nat) (b : Bool) :
    Spelled s .fenced .bare (e.pieces s d b) (comparisonTokens e) := by
  cases h with
  | reference h =>
    have htokens : comparisonTokens e = referenceTokens e := by cases h <;> rfl
    exact htokens ▸ h.spells d b
  | @comparison op l r hop hl hr =>
    have hright := (spelled_comparison hop).append (hr.spells (s := s) d false)
    have hall := (hl.spells (s := s) d false).append hright
    intro cs us hcs hus
    simpa [Expr.pieces, optionPieces, Piece.text, Quantifier.opening, Quantifier.closing,
      comparisonTokens] using hall cs us hcs hus

theorem spelled_nullTest (test : NullTest) :
    Spelled s .bare .bare [.mark (" " ++ test.text)] (testTokens test) := by
  cases test with
  | isNull => exact .mark (m := " IS NULL") (by decide)
  | isNotNull => exact .mark (m := " IS NOT NULL") (by decide)

theorem IsPredicate.spells {e : Expr} (h : IsPredicate e) (d : Nat) (b : Bool) :
    Spelled s .fenced .bare (e.pieces s d b) (predicateTokens e) := by
  cases h with
  | comparison h =>
    have htokens : predicateTokens e = comparisonTokens e := by
      cases h with
      | reference h => cases h <;> rfl
      | comparison => rfl
    exact htokens ▸ h.spells d b
  | nullTest test h =>
    exact (h.spells d false).append (spelled_nullTest test)

/-- What may follow a condition. -/
def Ends (us : List Token) : Prop :=
  us.headD .eof = .eof ∨ us.headD .eof = .symbol ")" ∨ (connective? (us.headD .eof)).isSome

theorem connective?_isSome {t : Token} (h : (connective? t).isSome) :
    keyOf t = "AND" ∨ keyOf t = "OR" := by
  unfold connective? at h
  grind

theorem Ends.plain (h : Ends us) : us.headD .eof ≠ .symbol "." ∧ comparison? (us.headD .eof) = none ∧
    keyOf (us.headD .eof) ≠ "IS" := by
  obtain h | h | h := h
  · rw [h]
    decide
  · rw [h]
    decide
  · obtain h | h := connective?_isSome h <;> cases htoken : us.headD .eof <;>
      simp_all [comparison?, keyOf]

theorem IsComparison.reads {e : Expr} (h : IsComparison e) (hpoint : us.headD .eof ≠ .symbol ".")
    (hsign : comparison? (us.headD .eof) = none) :
    readComparison (comparisonTokens e ++ us) = some (e, us) := by
  cases h with
  | reference h =>
    have htokens : comparisonTokens e = referenceTokens e := by cases h <;> rfl
    simp [readComparison, htokens, h.reads hpoint, hsign, -List.headD_eq_head?_getD]
  | @comparison op l r hop hl hr =>
    have hop' : comparison? (.symbol op) = some op := by simp [comparison?, hop]
    have hleft : readReference (referenceTokens l ++ .symbol op :: (referenceTokens r ++ us)) =
        some (l, .symbol op :: (referenceTokens r ++ us)) :=
      hl.reads (by rintro ⟨⟩; exact absurd hop (by decide))
    rw [readComparison, comparisonTokens, List.append_assoc, List.cons_append, hleft]
    simp [hop', hr.reads hpoint]

theorem IsPredicate.reads {e : Expr} (h : IsPredicate e) (hus : Ends us) :
    readPredicate (predicateTokens e ++ us) = some (e, us) := by
  obtain ⟨hpoint, hsign, hkey⟩ := hus.plain
  cases h with
  | comparison h =>
    have htokens : predicateTokens e = comparisonTokens e := by
      cases h with
      | reference h => cases h <;> rfl
      | comparison => rfl
    simp [readPredicate, htokens, h.reads hpoint hsign, hkey, -List.headD_eq_head?_getD]
  | nullTest test h =>
    have htest : ∃ t, testTokens test ++ us = .word "IS" :: t ∧ readTest t = some (test, us) := by
      cases test <;> exact ⟨_, rfl, rfl⟩
    obtain ⟨t, ht, hread⟩ := htest
    rw [readPredicate, predicateTokens, List.append_assoc, ht, h.reads (by simp) rfl]
    simp [hread, show keyOf (.word "IS") = "IS" from rfl]

/-- A predicate starts neither with a parenthesis nor with `NOT`. -/
theorem IsPredicate.opensPlain {e : Expr} (h : IsPredicate e) :
    ∃ t ts, predicateTokens e = t :: ts ∧ t ≠ .symbol "(" ∧ keyOf t ≠ "NOT" := by
  have hreference {e : Expr} (h : IsReference e) :
      ∃ t ts, referenceTokens e = t :: ts ∧ t ≠ .symbol "(" ∧ keyOf t ≠ "NOT" := by
    cases h with
    | param => exact ⟨_, _, rfl, by simp, by simp [keyOf]⟩
    | @column ws star hne hws =>
      obtain ⟨w, ws, rfl⟩ := List.exists_cons_of_ne_nil hne
      obtain ⟨ts, hts⟩ := pathTokens_cons star w ws
      refine ⟨_, ts, hts, by simp, fun hkey => ?_⟩
      exact isName_key (hws w List.mem_cons_self) (hkey ▸ by decide)
  have hcomparison {e : Expr} (h : IsComparison e) :
      ∃ t ts, comparisonTokens e = t :: ts ∧ t ≠ .symbol "(" ∧ keyOf t ≠ "NOT" := by
    cases h with
    | reference h =>
      have htokens : comparisonTokens e = referenceTokens e := by cases h <;> rfl
      exact htokens ▸ hreference h
    | comparison hop hl hr =>
      obtain ⟨t, ts, hts, hplain⟩ := hreference hl
      exact ⟨t, _, by rw [comparisonTokens, hts, List.cons_append], hplain⟩
  cases h with
  | comparison h =>
    have htokens : predicateTokens e = comparisonTokens e := by
      cases h with
      | reference h => cases h <;> rfl
      | comparison => rfl
    exact htokens ▸ hcomparison h
  | nullTest test h =>
    obtain ⟨t, ts, hts, hplain⟩ := hcomparison h
    exact ⟨t, _, by rw [predicateTokens, hts, List.cons_append], hplain⟩

/-! ### Chains -/

/-- A condition is spelled by the tokens and, where it is an operand, read from them. -/
structure Reads (s : Style) (ps : List Piece) (e : Expr) (ts : List Token) : Prop where
  spells : Spelled s .fenced .bare ps ts
  reads : ∀ n us, 2 * ts.length ≤ n → Ends us → operand n (ts ++ us) = some (e, us)

/-- No connective that binds more tightly than `p` comes next. -/
def Stops (p : Nat) (us : List Token) : Prop :=
  ∀ c ∈ connective? (us.headD .eof), ¬ p < c.strength

theorem climb_stops {e : Expr} {p n : Nat} (hus : Stops p us) : climb (n + 1) p e us = some (e, us) := by
  cases us with
  | nil =>
    rw [climb]
    exact nofun
  | cons t us =>
    rw [climb]
    split
    · rename_i c hc
      exact if_neg (hus c hc)
    · rfl

variable {e : Expr} {c : Connective} {args : List Expr} {d : Nat}

/-- An operand takes at least one step. -/
theorem Reads.ne_nil (h : Reads s ps e ts) : ts ≠ [] := by
  rintro rfl
  have hnone := h.reads 0 [.eof] (Nat.le_refl 0) (.inl rfl)
  rw [operand] at hnone
  cases hnone

theorem Reads.above (h : Reads s ps e ts) {n p : Nat} (hn : 2 * ts.length + 1 ≤ n) (hends : Ends us)
    (hstops : Stops p us) : above n p (ts ++ us) = some (e, us) := by
  have hlength := List.length_pos_iff.2 h.ne_nil
  obtain ⟨n, rfl⟩ : ∃ m, n = m + 2 := ⟨n - 2, by omega⟩
  rw [Grouping.above, h.reads (n + 1) us (by omega) hends]
  exact climb_stops hstops

/-- The word of a connective between operands. -/
theorem connective?_text (hc : c ≠ .not) : connective? (.word c.text) = some c := by
  cases c with
  | not => exact absurd rfl hc
  | and => rfl
  | or => rfl

theorem spelled_connective (hc : c ≠ .not) :
    Spelled s .fenced .fenced [.mark (c.text ++ " ")] [.word c.text] := by
  cases c with
  | not => exact absurd rfl hc
  | and => exact .mark (m := "AND ") (by decide)
  | or => exact .mark (m := "OR ") (by decide)

/-- What may follow a whole chain: a closing parenthesis or the end of the text. -/
def Closes (us : List Token) : Prop :=
  us.headD .eof = .eof ∨ us.headD .eof = .symbol ")"

theorem Closes.ends (h : Closes us) : Ends us :=
  h.elim .inl fun h => .inr (.inl h)

theorem Closes.stops (h : Closes us) (p : Nat) : Stops p us := by
  intro c hc
  obtain h | h := h <;>
  · rw [h] at hc
    cases hc

/-- What comes after the first operand of a chain: the connective again, or what may follow a chain. -/
theorem ends_cons (hc : c ≠ .not) (us : List Token) : Ends (.word c.text :: us) := by
  refine .inr (.inr ?_)
  rw [List.headD_cons, connective?_text hc]
  rfl

theorem stops_cons (hc : c ≠ .not) (us : List Token) : Stops c.strength (.word c.text :: us) := by
  intro c' hc'
  rw [List.headD_cons, connective?_text hc] at hc'
  cases hc'
  exact Nat.lt_irrefl _

/-- The operands after the first one, each of which joins what has been read before. -/
theorem exists_rest (hc : c ≠ .not) (hargs : ∀ e ∈ args, ∀ d, ∃ ts, Reads s (e.pieces s d true) e ts) :
    ∃ ts, Spelled s .bare .bare (chainRest s d c args) ts ∧
      (∀ us, Closes us → Ends (ts ++ us) ∧ Stops c.strength (ts ++ us)) ∧
      ∀ n x us, 2 * ts.length + 1 ≤ n → Closes us →
        climb n 0 x (ts ++ us) = some (args.foldl (Expr.joined c) x, us) := by
  induction args with
  | nil =>
    refine ⟨[], .nil s .bare, fun us hus => ⟨hus.ends, hus.stops _⟩, ?_⟩
    intro n x us hn hus
    obtain ⟨n, rfl⟩ : ∃ m, n = m + 1 := ⟨n - 1, by omega⟩
    exact climb_stops (hus.stops 0)
  | cons e args ih =>
    obtain ⟨ts, hspells, hfollows, hclimb⟩ := ih fun x hx => hargs x (List.mem_cons_of_mem e hx)
    obtain ⟨vs, hoperand⟩ := hargs e List.mem_cons_self (d + 1)
    refine ⟨.word c.text :: (vs ++ ts), ?_, fun us _ => ⟨ends_cons hc _, stops_cons hc _⟩, ?_⟩
    · have hlead := (spelled_newline s (d + 1)).append (spelled_connective (s := s) hc)
      simpa [chainRest] using hlead.append (hoperand.spells.append hspells)
    · intro n x us hn hus
      simp only [List.length_cons, List.length_append] at hn
      obtain ⟨n, rfl⟩ : ∃ m, n = m + 1 := ⟨n - 1, by omega⟩
      have hstrength : 0 < c.strength := by cases c <;> decide
      obtain ⟨hends, hstops⟩ := hfollows us hus
      rw [List.cons_append, List.append_assoc, climb, connective?_text hc]
      have hread := hoperand.above (n := n) (by omega) hends hstops
      simp only [if_pos hstrength, hread]
      exact hclimb n (x.joined c e) us (by omega) hus

theorem operands_of_ne (h : ∀ es, e ≠ .logic c es) : e.operands c = [e] := by
  cases e with
  | logic c' es =>
    rw [Expr.operands, if_neg]
    rintro rfl
    exact h es rfl
  | _ => rfl

theorem foldl_joined (es : List Expr) (h : ∀ e ∈ args, ∀ es, e ≠ .logic c es) :
    args.foldl (Expr.joined c) (.logic c es) = .logic c (es ++ args) := by
  induction args generalizing es with
  | nil => simp
  | cons e args ih =>
    have hjoined : Expr.joined c (.logic c es) e = .logic c (es ++ [e]) := by
      rw [Expr.joined, operands_of_ne (h e List.mem_cons_self), Expr.operands, if_pos rfl]
    rw [List.foldl_cons, hjoined, ih (es ++ [e]) fun x hx => h x (List.mem_cons_of_mem e hx)]
    simp

/-- A chain is read as the condition that it was laid out from. -/
theorem exists_chain (hc : c ≠ .not) (hlength : 2 ≤ args.length)
    (hargs : ∀ e ∈ args, ∀ d, ∃ ts, Reads s (e.pieces s d true) e ts)
    (hflat : ∀ e ∈ args, ∀ es, e ≠ .logic c es) (d : Nat) :
    ∃ ts, Spelled s .fenced .bare (chainPieces s d c args) ts ∧
      ∀ n us, 2 * ts.length + 1 ≤ n → Closes us →
        above n 0 (ts ++ us) = some (.logic c args, us) := by
  match args, hlength with
  | e :: x :: args, _ =>
    obtain ⟨vs, hoperand⟩ := hargs e List.mem_cons_self d
    have hrest : ∀ y ∈ x :: args, ∀ d, ∃ ts, Reads s (y.pieces s d true) y ts :=
      fun y hy => hargs y (List.mem_cons_of_mem e hy)
    obtain ⟨ts, hspells, hfollows, hclimb⟩ := exists_rest (d := d) hc hrest
    refine ⟨vs ++ ts, ?_, ?_⟩
    · exact hoperand.spells.append hspells
    · intro n us hn hus
      have hpos := List.length_pos_iff.2 hoperand.ne_nil
      rw [List.length_append] at hn
      obtain ⟨n, rfl⟩ : ∃ m, n = m + 1 := ⟨n - 1, by omega⟩
      rw [List.append_assoc, above, hoperand.reads n _ (by omega) (hfollows us hus).1]
      have hjoined : Expr.joined c e x = .logic c [e, x] := by
        rw [Expr.joined, operands_of_ne (hflat e (by simp)), operands_of_ne (hflat x (by simp))]
        rfl
      have hfold : (x :: args).foldl (Expr.joined c) e = .logic c (e :: x :: args) := by
        rw [List.foldl_cons, hjoined, foldl_joined [e, x] fun y hy => hflat y (by simp [hy])]
        rfl
      exact hfold ▸ hclimb n e us (by omega) hus

/-! ### Operands -/

/-- Pieces of a chain that stands as an operand. -/
theorem pieces_group (hc : c ≠ .not) (s : Style) (d : Nat) (args : List Expr) :
    Expr.pieces s d true (.logic c args) =
      [.mark "("] ++ (Piece.newline (d + 1) ++ chainPieces s (d + 1) c args ++
        (Piece.newline d ++ [.mark ")"])) := by
  cases c with
  | not => exact absurd rfl hc
  | _ => simp [Expr.pieces, Piece.newline]

theorem pieces_not (s : Style) (d : Nat) (isOperand : Bool) (e : Expr) :
    Expr.pieces s d isOperand (.logic .not [e]) = [.mark "NOT "] ++ e.pieces s d true := by
  simp [Expr.pieces, firstOperand]

theorem IsPredicate.operand (h : IsPredicate e) (d : Nat) (b : Bool) :
    Reads s (e.pieces s d b) e (predicateTokens e) where
  spells := h.spells d b
  reads n us hn hus := by
    obtain ⟨t, ts, hts, hparen, hnot⟩ := h.opensPlain
    have hread := h.reads hus
    rw [hts, List.length_cons] at hn
    rw [hts, List.cons_append] at hread ⊢
    obtain ⟨n, rfl⟩ : ∃ m, n = m + 1 := ⟨n - 1, by omega⟩
    rw [Grouping.operand, if_neg hparen, if_neg hnot, hread]

theorem Reads.not (h : Reads s ps e ts) :
    Reads s ([.mark "NOT "] ++ ps) (.logic .not [e]) (.word "NOT" :: ts) where
  spells := .append (.mark (m := "NOT ") (by decide)) h.spells
  reads n us hn hus := by
    rw [List.length_cons] at hn
    obtain ⟨n, rfl⟩ : ∃ m, n = m + 1 := ⟨n - 1, by omega⟩
    have hkey : keyOf (.word "NOT") = "NOT" := by decide
    rw [List.cons_append, operand, if_neg (by simp), if_pos hkey, h.reads n us (by omega) hus]
    rfl

theorem reads_group (hc : c ≠ .not) (hspells : Spelled s .fenced .bare (chainPieces s (d + 1) c args) ts)
    (habove : ∀ n us, 2 * ts.length + 1 ≤ n → Closes us →
      above n 0 (ts ++ us) = some (.logic c args, us)) :
    Reads s (Expr.pieces s d true (.logic c args)) (.logic c args)
      (.symbol "(" :: (ts ++ [.symbol ")"])) where
  spells := by
    rw [pieces_group hc]
    have hopen : Spelled s .fenced .bare [.mark "("] [.symbol "("] := .mark (by decide)
    have hclose : Spelled s .fenced .bare [.mark ")"] [.symbol ")"] := .mark (by decide)
    have hlast := (spelled_newline s d).append hclose
    exact hopen.append (((spelled_newline s (d + 1)).append hspells).append hlast)
  reads n us hn hus := by
    simp only [List.length_cons, List.length_append, List.length_nil] at hn
    obtain ⟨n, rfl⟩ : ∃ m, n = m + 1 := ⟨n - 1, by omega⟩
    have hchain := habove n (.symbol ")" :: us) (by omega) (.inr rfl)
    rw [List.cons_append, operand, if_pos rfl, List.append_assoc, List.singleton_append, hchain]
    rfl

/-- By induction on the condition: its operands are spelled and read at every depth. -/
theorem IsCondition.exists_operand (h : IsCondition e) (s : Style) :
    ∀ d, ∃ ts, Reads s (e.pieces s d true) e ts := by
  induction h with
  | predicate h => exact fun d => ⟨_, h.operand d true⟩
  | not _ ih =>
    intro d
    obtain ⟨ts, hts⟩ := ih d
    exact ⟨_, pieces_not s d true _ ▸ hts.not⟩
  | chain hc hlength _ hflat ih =>
    intro d
    obtain ⟨ts, hspells, habove⟩ := exists_chain hc hlength ih hflat (d + 1)
    exact ⟨_, reads_group hc hspells habove⟩

/-- A whole condition, which stands without parentheses. -/
theorem IsCondition.exists_whole (h : IsCondition e) (s : Style) (d : Nat) :
    ∃ ts, Spelled s .fenced .bare (e.pieces s d false) ts ∧
      ∀ n, 2 * ts.length + 1 ≤ n → above n 0 (ts ++ [.eof]) = some (e, [.eof]) := by
  have hcloses : Closes [.eof] := .inl rfl
  cases h with
  | predicate h =>
    have hoperand := h.operand (s := s) d false
    exact ⟨_, hoperand.spells, fun n hn => hoperand.above hn hcloses.ends (hcloses.stops 0)⟩
  | not h =>
    obtain ⟨ts, hts⟩ := h.exists_operand s d
    refine ⟨_, pieces_not s d false _ ▸ hts.not.spells, fun n hn => ?_⟩
    exact hts.not.above hn hcloses.ends (hcloses.stops 0)
  | @chain c args hc hlength hargs hflat =>
    obtain ⟨ts, hspells, habove⟩ :=
      exists_chain hc hlength (fun x hx => (hargs x hx).exists_operand s) hflat d
    have hpieces : Expr.pieces s d false (.logic c args) = chainPieces s d c args := by
      cases c with
      | not => exact absurd rfl hc
      | _ => rfl
    exact ⟨ts, hpieces ▸ hspells, fun n hn => habove n _ hn hcloses⟩

/-- Characters that are read as the given tokens are a text of these tokens and its end. -/
theorem exists_tokens {text : String} (h : Runs text.toList ts) :
    ∃ ls, Sql.tokens text = .ok ls ∧ ls.map Sql.Lexeme.token = ts ++ [.eof] := by
  obtain ⟨ls, last, hrun, hspells, hlast⟩ := h _ ⟨⟨1, 1⟩, none, false⟩ (Nat.lt_succ_self _)
  refine ⟨ls ++ [last], hrun, ?_⟩
  have hmap : ls.map Sql.Lexeme.token = ts := by
    have hall : List.Forall₂ Eq (ls.map Sql.Lexeme.token) ts :=
      List.forall₂_map_left_iff.2 (hspells.imp fun _ _ h => h.token)
    exact List.forall₂_eq_eq_eq ▸ hall
  rw [List.map_append, hmap, List.map_singleton, hlast.token]

end Grouping

open Grouping in
/-- The text of a condition is read as that condition. -/
theorem readCondition?_pieces (s : Style) (d : Nat) (e : Expr) (h : IsCondition e) :
    readCondition? (Piece.textOf s (e.pieces s d false)) = some e := by
  obtain ⟨ts, hspells, habove⟩ := h.exists_whole s d
  have hruns : Runs (Piece.textOf s (e.pieces s d false)).toList ts := by
    simpa using (hspells [] [] (by simp [Edge.Accepts, Sql.Lexer.EndsNumeral]) .nil).1
  obtain ⟨ls, htokens, hmap⟩ := exists_tokens hruns
  have hread := habove (2 * (ts.length + 1) + 1) (by omega)
  simp [readCondition?, htokens, hmap, hread]

open Grouping in
/-- `NOT (a OR NOT b.c = $1) AND d IS NULL` is read with its groups. -/
theorem readCondition?_mixed :
    let a := Expr.column ["a"] false
    let test := Expr.operation .none "=" (.column ["b", "c"] false) (.param 1) none
    let e := Expr.logic .and
      [.logic .not [.logic .or [a, .logic .not [test]]], .nullTest (.column ["d"] false) .isNull]
    IsCondition e ∧ readCondition? (Piece.textOf {} (e.pieces {} 1 false)) = some e := by
  intro a test e
  have ha : IsCondition a :=
    .predicate (.comparison (.reference (.column _ (by decide) (by decide))))
  have htest : IsCondition test :=
    .predicate (.comparison (.comparison (by decide) (.column _ (by decide) (by decide))
      (.param (by decide))))
  have hnull : IsCondition (.nullTest (.column ["d"] false) .isNull) :=
    .predicate (.nullTest _ (.reference (.column _ (by decide) (by decide))))
  have hor : IsCondition (.logic .or [a, .logic .not [test]]) := by
    refine .chain (by decide) (by decide) ?_ (by simp [a])
    simpa using ⟨ha, .not htest⟩
  have hand : IsCondition e := by
    refine .chain (by decide) (by decide) ?_ (by simp)
    simpa using ⟨.not hor, hnull⟩
  exact ⟨hand, readCondition?_pieces {} 1 e hand⟩

end SqlLayout.Layout
