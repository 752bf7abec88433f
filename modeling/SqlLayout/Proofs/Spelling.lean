import SqlLayout.Proofs.Fences
import SqlLayout.Proofs.Lexing

/-!
The tokens of laid-out pieces. Pieces that stand between two places are read as the same tokens whatever
is laid out around them: at the end of a text of the tree only that follows which cannot continue it.
-/

namespace SqlLayout.Layout

open Piece (newline sepBy commas leaves)
open Sql (Token)
open Sql.Lexer (Runs isWord isMark numeralEnds skim)

/-- What may follow a place: anything, or only what ends a text of the tree. -/
def Edge.Accepts : Edge → List Char → Prop
  | .bare, cs => Sql.Lexer.EndsNumeral cs
  | .fenced, _ => True

/-- Pieces that are read as the tokens between two places. -/
def Spelled (s : Style) (a b : Edge) (ps : List Piece) (ts : List Token) : Prop :=
  ∀ cs us, b.Accepts cs → Runs cs us →
    Runs ((Piece.textOf s ps).toList ++ cs) (ts ++ us) ∧ a.Accepts ((Piece.textOf s ps).toList ++ cs)

variable {s : Style} {a b c : Edge} {ps qs : List Piece} {ts us : List Token}

namespace Spelled

theorem nil (s : Style) (a : Edge) : Spelled s a a [] [] :=
  fun _ _ ha hus => ⟨hus, ha⟩

theorem append (h : Spelled s a b ps ts) (h' : Spelled s b c qs us) :
    Spelled s a c (ps ++ qs) (ts ++ us) := by
  intro cs vs hcs hvs
  obtain ⟨hruns, haccepts⟩ := h' cs vs hcs hvs
  simpa using h _ _ haccepts hruns

/-- Pieces of which only the first part of the text matters for what stands before them. -/
theorem of_runs (h : ∀ cs us, b.Accepts cs → Runs cs us →
    Runs ((Piece.textOf s ps).toList ++ cs) (ts ++ us)) : Spelled s .fenced b ps ts :=
  fun cs us hcs hus => ⟨h cs us hcs hus, trivial⟩

end Spelled

/-! ### Fixed text -/

/-- Whether fixed text may stand between two places. -/
def joins (a : Edge) (m : String) (b : Edge) : Bool :=
  isMark m.toList &&
    (match a with
      | .bare => m.toList.head?.any numeralEnds.contains
      | .fenced => true) &&
    (match b with
      | .bare => true
      | .fenced => m.toList.getLast?.all (!·.isUpper))

theorem accepts_cons {c : Char} (hc : c ∈ numeralEnds) (cs : List Char) : Edge.bare.Accepts (c :: cs) := by
  rintro _ ⟨⟩
  exact hc

theorem Spelled.mark {m : String} (h : joins a m b) : Spelled s a b [.mark m] (skim [] m.toList) := by
  simp only [joins, Bool.and_eq_true] at h
  obtain ⟨⟨hmark, hfirst⟩, hlast⟩ := h
  intro cs us hcs hus
  simp only [Piece.textOf_cons, Piece.textOf_nil, String.append_empty, Piece.text]
  constructor
  · refine @Runs.skim _ [] _ _ hmark rfl (fun c hc hupper => ?_) hus
    cases b with
    | bare =>
      have hends : ∀ c ∈ numeralEnds, c ∈ Sql.Lexer.endChars := by decide
      exact fun d hd => hends d (hcs d hd)
    | fenced =>
      have hlower := (Option.all_eq_true _ _).1 hlast c hc
      rw [hupper] at hlower
      cases hlower
  · cases a with
    | bare =>
      cases hm : m.toList with
      | nil =>
        rw [hm] at hfirst
        cases hfirst
      | cons c r =>
        rw [hm] at hfirst
        exact accepts_cons (List.contains_iff_mem.1 hfirst) _
    | fenced => trivial

theorem runs_spaces {w cs : List Char} (hw : w.all Sql.Lexer.isSpace) (h : Runs cs ts) :
    Runs (w ++ cs) ts := by
  induction w with
  | nil => exact h
  | cons c w ih =>
    simp only [List.all_cons, Bool.and_eq_true] at hw
    exact .space hw.1 (ih hw.2)

theorem isSpace_replicate {u : String} (hu : u.toList.all Sql.Lexer.isSpace) (n : Nat) :
    (Text.replicate u n).toList.all Sql.Lexer.isSpace := by
  induction n with
  | zero => rfl
  | succ n ih => simp_all [Text.replicate]

theorem spelled_indent (s : Style) (d : Nat) : Spelled s .fenced .fenced [.indent d] [] := by
  refine .of_runs fun cs us _ hus => ?_
  have hspaces : (s.indentBy d).toList.all Sql.Lexer.isSpace := by
    refine isSpace_replicate ?_ d
    cases s.indent <;> rfl
  simpa [Piece.text] using runs_spaces hspaces hus

theorem spelled_lineBreak (s : Style) : Spelled s .bare .fenced [.lineBreak] [] := by
  intro cs us _ hus
  have hblank : '\n' ∈ numeralEnds := by decide
  exact ⟨by simpa [Piece.text] using Runs.space (c := '\n') rfl hus,
    by simpa [Piece.text] using accepts_cons hblank cs⟩

theorem spelled_newline (s : Style) (d : Nat) : Spelled s .bare .fenced (newline d) [] :=
  (spelled_lineBreak s).append (spelled_indent s d)

/-! ### Texts of the tree -/

theorem spelled_param (n : Nat) :
    Spelled s .fenced .bare [.leaf ("$" ++ toString n)] [.placeholder ("$" ++ toString n)] := by
  refine .of_runs fun cs us hcs hus => ?_
  have hdigits : (Nat.toDigits 10 n).all Char.isDigit := by
    rw [List.all_eq_true]
    exact fun c hc => Nat.isDigit_of_mem_toDigits (by decide) (by decide) hc
  have hrepr : toString n = String.ofList (Nat.toDigits 10 n) := Nat.repr_eq_ofList_toDigits
  simpa [Piece.text, hrepr] using Runs.placeholder hdigits Nat.toDigits_ne_nil hcs hus

/-- The tokens of a path of names, and of the star after it. -/
def pathTokens (star : Bool) : List String → List Token
  | [] => []
  | [w] => .word w :: if star then [.symbol ".", .symbol "*"] else []
  | w :: ws => .word w :: .symbol "." :: pathTokens star ws

theorem columnPieces_cons (w v : String) (ws : List String) (star : Bool) :
    columnPieces (w :: v :: ws) star = [.leaf w, .mark "."] ++ columnPieces (v :: ws) star := rfl

/-- A path starts with a character of its first name. -/
theorem exists_head_column {w : String} (hw : isWord w.toList) (s : Style) (ws : List String)
    (star : Bool) :
    ∃ c cs, c.isDigit = false ∧ (Piece.textOf s (columnPieces (w :: ws) star)).toList = c :: cs := by
  cases hlist : w.toList with
  | nil =>
    rw [hlist] at hw
    cases hw
  | cons c r =>
    rw [hlist, isWord, Bool.and_eq_true] at hw
    have hdigit := Sql.Lexer.startsWord_not_digit hw.1
    have htext : ∃ ps, columnPieces (w :: ws) star = .leaf w :: ps := by
      cases ws <;> exact ⟨_, rfl⟩
    obtain ⟨ps, hps⟩ := htext
    exact ⟨c, r ++ (Piece.textOf s ps).toList, hdigit, by simp [hps, Piece.text, hlist]⟩

theorem spelled_column {ws : List String} (star : Bool) (hne : ws ≠ [])
    (hws : ∀ w ∈ ws, isWord w.toList) :
    Spelled s .fenced .bare (columnPieces ws star) (pathTokens star ws) := by
  refine .of_runs fun cs us hcs hus => ?_
  have hends : ∀ c ∈ numeralEnds, c ∈ Sql.Lexer.endChars := by decide
  induction ws with
  | nil => exact absurd rfl hne
  | cons w ws ih =>
    have hword := hws w List.mem_cons_self
    cases ws with
    | nil =>
      cases star with
      | false =>
        simpa [columnPieces, pathTokens, Piece.leaves, Piece.sepBy, Piece.text] using
          Runs.word hword (fun c hc => hends c (hcs c hc)) hus
      | true =>
        have hstar : Runs ('*' :: cs) (.symbol "*" :: us) := .punctuation (by decide) hus
        simpa [columnPieces, pathTokens, Piece.leaves, Piece.sepBy, Piece.text] using
          Runs.qualifier hword rfl hstar
    | cons v ws =>
      have hv := hws v (by simp)
      obtain ⟨c, r, hdigit, htext⟩ := exists_head_column hv s ws star
      have hrest := ih (by simp) fun x hx => hws x (List.mem_cons_of_mem w hx)
      rw [htext] at hrest
      simpa [columnPieces_cons, pathTokens, Piece.text, htext] using
        Runs.qualifier hword hdigit hrest

theorem spelled_sign {op : String} (hop : op ∈ Sql.Lexer.writtenSigns.map (·.2.2)) :
    Spelled s .bare .fenced [.mark " ", .leaf (operatorText op), .mark " "] [.symbol op] := by
  have htexts : ∀ e ∈ Sql.Lexer.writtenSigns, (operatorText e.2.2).toList = e.1 :: e.2.1 := by decide
  obtain ⟨e, he, rfl⟩ := List.mem_map.1 hop
  intro cs us _ hus
  have hblank : ' ' ∈ numeralEnds := by decide
  have hsign := Runs.space (c := ' ') rfl (Runs.sign he (Runs.space (c := ' ') rfl hus))
  exact ⟨by simpa [Piece.text, htexts e he] using hsign, by simpa [Piece.text] using accepts_cons hblank _⟩

end SqlLayout.Layout
