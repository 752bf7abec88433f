import Mathlib
import SqlLayout.Sql.Lexer

/-!
Reading tokens one by one. Each kind of token is read from the front of a text if what follows cannot
continue it, and the tokens after it are those of the rest.
-/

namespace SqlLayout.Sql

/-- A lexeme of the given token. Opening brackets are left out. -/
structure Lexeme.Is (l : Lexeme) (t : Token) : Prop where
  token : l.token = t
  key : l.key = Lexer.keyOf t
  plain : t ≠ .symbol "["

/-- Lexemes of the given tokens. -/
abbrev Spells : List Lexeme → List Token → Prop :=
  List.Forall₂ Lexeme.Is

namespace Lexer

/-- The characters are read as the given tokens, wherever they stand. -/
def Runs (cs : List Char) (ts : List Token) : Prop :=
  ∀ fuel cursor, cs.length < fuel → ∃ ls last, run fuel cursor cs = .ok (ls ++ [last]) ∧
    Spells ls ts ∧ last.Is .eof

theorem Runs.nil : Runs [] [] := by
  intro fuel cursor hfuel
  cases fuel with
  | zero => cases hfuel
  | succ fuel => exact ⟨[], _, rfl, .nil, rfl, rfl, by decide⟩

theorem Runs.space {c : Char} {cs : List Char} {ts : List Token} (hc : isSpace c = true)
    (h : Runs cs ts) : Runs (c :: cs) ts := by
  intro fuel cursor hfuel
  have hblank : blank (c :: cs) = some (.ok cs) := by
    unfold blank
    split
    · rename_i heq
      injection heq with hc'
      subst hc'
      exact absurd hc (by decide)
    · rename_i heq
      injection heq with hc'
      subst hc'
      exact absurd hc (by decide)
    · rename_i heq
      injection heq with hc' hcs'
      subst hc' hcs'
      rw [if_pos hc]
    · rename_i heq
      cases heq
  cases fuel with
  | zero => cases hfuel
  | succ fuel =>
    rw [run, hblank]
    exact h fuel _ (Nat.lt_of_succ_lt_succ hfuel)

/-- Whether a name ends with the token. -/
def endsName : Token → Bool
  | .word _ => true
  | .delimited _ => true
  | _ => false

/-- One step that reads a token. -/
theorem run_token (n : Nat) (cursor : Cursor) {c : Char} {r left : List Char} {t : Token}
    (hblank : blank (c :: r) = none) (htoken : token cursor.afterWord c r = .ok (t, left)) :
    ∃ l next, l.token = t ∧ l.key = keyOf t ∧ next.afterWord = endsName t ∧
      run (n + 1) cursor (c :: r) = (run n next left).map (l :: ·) := by
  refine ⟨⟨t, keyOf t, some cursor.place, cursor.gap⟩,
    ⟨placeAt cursor.place (c :: r) left, none, endsName t⟩, rfl, rfl, rfl, ?_⟩
  rw [run, hblank]
  simp only [htoken]
  cases t <;> exact bind_pure_comp _ _

theorem Runs.token {c : Char} {r cs : List Char} {t : Token} {ts : List Token}
    (hblank : blank (c :: (r ++ cs)) = none)
    (htoken : ∀ afterWord, token afterWord c (r ++ cs) = .ok (t, cs)) (ht : t ≠ .symbol "[")
    (h : Runs cs ts) : Runs (c :: (r ++ cs)) (t :: ts) := by
  intro fuel cursor hfuel
  cases fuel with
  | zero => cases hfuel
  | succ fuel =>
    obtain ⟨l, next, htoken, hkey, -, hstep⟩ := run_token fuel cursor hblank (htoken cursor.afterWord)
    obtain ⟨ls, last, hrun, hls, hlast⟩ := h fuel next (by
      simp only [List.length_cons, List.length_append] at hfuel
      omega)
    rw [hstep, hrun]
    exact ⟨l :: ls, last, rfl, .cons ⟨htoken, hkey, ht⟩ hls, hlast⟩

/-- A character that is neither a quote nor an ampersand, so that no constant is introduced. -/
theorem introduced_none (c : Char) {r : List Char} (h : ∀ d ∈ r.head?, d ∉ ['\x27', '"', '&']) :
    introduced c r = none := by
  unfold introduced
  split <;> first | rfl | exact absurd (by simp) (h _ rfl)

theorem symbol_startsWord {c : Char} (hc : startsWord c = true) (r : List Char) :
    symbol (c :: r) = none := by
  unfold symbol
  split <;> first | rfl | (rename_i heq; injection heq with heq; subst heq; exact absurd hc (by decide))

/-- A bare word. -/
def isWord : List Char → Bool
  | [] => false
  | c :: r => startsWord c && r.all continuesWord

/-- The characters that end a word: blanks and marks of punctuation. -/
def endChars : List Char :=
  [' ', '\n', '(', ')', ',', ';', '.', ':']

def EndsWord (cs : List Char) : Prop :=
  ∀ c ∈ cs.head?, c ∈ endChars

theorem continuesWord_of_mem_endChars {c : Char} (h : c ∈ endChars) : continuesWord c = false := by
  revert h
  revert c
  decide

theorem startsWord_le {c : Char} (hc : startsWord c = true) : 65 ≤ c.toNat := by
  simp only [startsWord, Char.isAlpha, Char.isUpper, Char.isLower, Bool.or_eq_true, Bool.and_eq_true,
    decide_eq_true_eq, beq_iff_eq, UInt32.le_iff_toNat_le, ge_iff_le] at hc
  simp only [Char.toNat]
  obtain ((⟨h, -⟩ | ⟨h, -⟩) | rfl) | h := hc
  · exact h
  · exact Nat.le_trans (by decide) h
  · decide
  · exact Nat.le_trans (by decide) h

theorem startsWord_not_digit {c : Char} (hc : startsWord c = true) : c.isDigit = false := by
  have hle := startsWord_le hc
  simp only [Char.isDigit, Bool.and_eq_false_iff, decide_eq_false_iff_not]
  right
  intro h
  exact absurd (Nat.le_trans hle (UInt32.le_iff_toNat_le.1 h)) (by decide)

theorem continuesWord_of_startsWord {c : Char} (hc : startsWord c = true) : continuesWord c = true := by
  simp only [startsWord, continuesWord, Char.isAlphanum, Bool.or_eq_true] at hc ⊢
  tauto

/-- A character that is no white space and starts no comment. -/
theorem blank_none {c : Char} (hle : 14 ≤ c.toNat) (hc : c ∉ [' ', '-', '/']) (r : List Char) :
    blank (c :: r) = none := by
  simp only [List.mem_cons, List.not_mem_nil, or_false, not_or] at hc
  unfold blank
  split
  · rename_i heq
    injection heq with heq
    exact absurd heq hc.2.1
  · rename_i heq
    injection heq with heq
    exact absurd heq hc.2.2
  · rename_i heq
    injection heq with heq
    subst heq
    rw [if_neg]
    simp only [isSpace, Bool.or_eq_true, beq_iff_eq, Bool.and_eq_true, decide_eq_true_eq, hc.1,
      false_or, not_and, Char.le_def, UInt32.le_iff_toNat_le]
    exact fun _ => Nat.not_le.2 hle
  · rfl

theorem ne_of_startsWord {c d : Char} (hc : startsWord c = true) (hd : startsWord d = false) : c ≠ d := by
  rintro rfl
  rw [hc] at hd
  cases hd

theorem blank_startsWord {c : Char} (hc : startsWord c = true) (r : List Char) :
    blank (c :: r) = none := by
  refine blank_none (Nat.le_trans (by decide) (startsWord_le hc)) ?_ r
  simp only [List.mem_cons, List.not_mem_nil, or_false, not_or]
  exact ⟨ne_of_startsWord hc (by decide), ne_of_startsWord hc (by decide),
    ne_of_startsWord hc (by decide)⟩

theorem takeWhile_append_stop {p : Char → Bool} {w cs : List Char} (hw : w.all p = true)
    (hcs : ∀ c ∈ cs.head?, p c = false) :
    (w ++ cs).takeWhile p = w ∧ (w ++ cs).dropWhile p = cs := by
  induction w with
  | nil =>
    cases cs with
    | nil => exact ⟨rfl, rfl⟩
    | cons c cs => simp [hcs c rfl]
  | cons c w ih =>
    simp only [List.all_cons, Bool.and_eq_true] at hw
    obtain ⟨htake, hdrop⟩ := ih hw.2
    simp [hw.1, htake, hdrop]

theorem token_word {c : Char} {r cs : List Char} (hw : isWord (c :: r) = true) (hcs : EndsWord cs)
    (afterWord : Bool) :
    Lexer.token afterWord c (r ++ cs) = .ok (.word (String.ofList (c :: r)), cs) := by
  simp only [isWord, Bool.and_eq_true] at hw
  obtain ⟨hc, hr⟩ := hw
  have hall : (c :: r).all continuesWord = true := by
    rw [List.all_cons, continuesWord_of_startsWord hc, hr, Bool.true_and]
  obtain ⟨htake, hdrop⟩ := takeWhile_append_stop hall
    fun d hd => continuesWord_of_mem_endChars (hcs d hd)
  have hintroduced : introduced c (r ++ cs) = none := by
    apply introduced_none
    intro d hd hmem
    cases r with
    | nil =>
      have hend : ∀ d ∈ ['\x27', '"', '&'], d ∉ endChars := by decide
      exact hend d hmem (hcs d hd)
    | cons e r =>
      cases hd
      have hcontinues : ∀ d ∈ ['\x27', '"', '&'], continuesWord d = false := by decide
      rw [List.all_cons, hcontinues d hmem] at hr
      cases hr
  have hquote : c ≠ '\x27' := ne_of_startsWord hc (by decide)
  have hdouble : c ≠ '"' := ne_of_startsWord hc (by decide)
  have hdigit : (c.isDigit || c == '.') = false := by
    rw [startsWord_not_digit hc, Bool.false_or, beq_eq_false_iff_ne]
    exact ne_of_startsWord hc (by decide)
  rw [Lexer.token, hintroduced]
  simp only [beq_iff_eq, hquote, hdouble, hdigit, if_false, symbol_startsWord hc, hc, if_true,
    Bool.false_eq_true]
  rw [Lexer.word, ← List.cons_append, htake, hdrop]

theorem Runs.word {w cs : List Char} {ts : List Token} (hw : isWord w = true) (hcs : EndsWord cs)
    (h : Runs cs ts) : Runs (w ++ cs) (.word (String.ofList w) :: ts) := by
  cases w with
  | nil => cases hw
  | cons c r =>
    have hc : startsWord c = true := by
      simp only [isWord, Bool.and_eq_true] at hw
      exact hw.1
    exact Runs.token (blank_startsWord hc _) (token_word hw hcs) (by simp) h

/-- The marks of punctuation that are one token whatever follows them. -/
theorem Runs.punctuation {c : Char} {cs : List Char} {ts : List Token}
    (hc : c ∈ ['(', ')', ',', ';', '*', '+']) (h : Runs cs ts) :
    Runs (c :: cs) (.symbol c.toString :: ts) := by
  have hblank : blank (c :: cs) = none := by
    simp only [List.mem_cons, List.not_mem_nil, or_false] at hc
    obtain rfl | rfl | rfl | rfl | rfl | rfl := hc <;> rfl
  refine Runs.token (r := []) hblank ?_ ?_ h
  · intro afterWord
    simp only [List.mem_cons, List.not_mem_nil, or_false] at hc
    obtain rfl | rfl | rfl | rfl | rfl | rfl := hc <;> rfl
  · simp only [List.mem_cons, List.not_mem_nil, or_false] at hc
    obtain rfl | rfl | rfl | rfl | rfl | rfl := hc <;> decide

/-- A character that neither is a digit nor joins two groups of digits. -/
def endsDigits (c : Char) : Bool :=
  !c.isDigit && c != '_'

theorem digits_append {w cs : List Char} (hw : w.all Char.isDigit = true)
    (hcs : ∀ c ∈ cs.head?, endsDigits c = true) : digits Char.isDigit (w ++ cs) = (w, cs) := by
  induction w with
  | nil =>
    cases cs with
    | nil => rfl
    | cons c cs =>
      have hc := hcs c rfl
      simp only [endsDigits, Bool.and_eq_true, Bool.not_eq_true', bne_iff_ne] at hc
      simp [digits, hc.1, hc.2]
  | cons c w ih =>
    simp only [List.all_cons, Bool.and_eq_true] at hw
    simp [digits, hw.1, ih hw.2]

/-- A point before anything but a digit. An underscore may follow only the point after a name. -/
theorem token_point {c : Char} {afterWord : Bool} (hc : c.isDigit = false)
    (hunder : c = '_' → afterWord = true) (cs : List Char) :
    Lexer.token afterWord '.' (c :: cs) = .ok (.symbol ".", c :: cs) := by
  change number afterWord ('.' :: c :: cs) = _
  by_cases hname : c = '_'
  · subst hname
    rw [hunder rfl]
    rfl
  · have hpoint : pointBeforeName afterWord ('.' :: c :: cs) = none := by
      unfold pointBeforeName
      split
      · rename_i heq
        injection heq with _ heq
        injection heq with heq
        exact absurd heq hname
      · rfl
    have hwhole : digits Char.isDigit ('.' :: c :: cs) = ([], '.' :: c :: cs) :=
      digits_append (w := []) rfl (by rintro _ ⟨⟩; decide)
    have hfraction : digits Char.isDigit (c :: cs) = ([], c :: cs) :=
      digits_append (w := []) rfl (by rintro _ ⟨⟩; simp [endsDigits, hc, hname])
    rw [number, hpoint]
    simp only [hwhole, hfraction]
    rfl

/-- A name with the point after it. -/
theorem Runs.qualifier {w : List Char} {c : Char} {cs : List Char} {ts : List Token}
    (hw : isWord w = true) (hc : c.isDigit = false) (h : Runs (c :: cs) ts) :
    Runs (w ++ '.' :: c :: cs) (.word (String.ofList w) :: .symbol "." :: ts) := by
  intro fuel cursor hfuel
  cases w with
  | nil => cases hw
  | cons d r =>
    have hd : startsWord d = true := by
      simp only [isWord, Bool.and_eq_true] at hw
      exact hw.1
    have hends : EndsWord ('.' :: c :: cs) := by
      rintro _ ⟨⟩
      decide
    simp only [List.length_append, List.length_cons] at hfuel
    obtain ⟨n, rfl⟩ : ∃ n, fuel = n + 1 + 1 := ⟨fuel - 2, by omega⟩
    obtain ⟨l, next, hl, hkey, hafter, hstep⟩ :=
      run_token (n + 1) cursor (blank_startsWord hd _) (token_word hw hends cursor.afterWord)
    obtain ⟨m, last, hm, hmkey, -, hpoint⟩ := run_token n next
      (show blank ('.' :: c :: cs) = none from rfl) (token_point hc (fun _ => hafter) cs)
    obtain ⟨ls, e, hrun, hls, he⟩ := h n last (by simp only [List.length_cons]; omega)
    refine ⟨l :: m :: ls, e, ?_, .cons ⟨hl, hkey, by simp⟩ (.cons ⟨hm, hmkey, by decide⟩ hls), he⟩
    rw [List.cons_append, hstep, hpoint, hrun]
    rfl

/-- The characters that end a number. -/
def numeralEnds : List Char :=
  [' ', '\n', ')', ',', ';', ':']

def EndsNumeral (cs : List Char) : Prop :=
  ∀ c ∈ cs.head?, c ∈ numeralEnds

/-- The letters that introduce a constant. -/
theorem introduced_other {c : Char} (hc : c ∉ "bBnNxXeEuU".toList) (r : List Char) :
    introduced c r = none := by
  unfold introduced
  split <;> first | rfl | exact absurd (by decide) hc

/-- The operators between operands: how they are written and which symbols they are. -/
def writtenSigns : List (Char × List Char × String) :=
  [('=', [], "="), ('<', [], "<"), ('<', ['='], "<="), ('!', ['='], "<>"), ('>', [], ">"),
    ('>', ['='], ">="), ('~', [], "~"), ('~', ['*'], "~*"), ('!', ['~'], "!~"),
    ('!', ['~', '*'], "!~*"), ('|', ['|'], "||"), ('-', ['>'], "->"), ('-', ['>', '>'], "->>"),
    ('#', ['>'], "#>"), ('#', ['>', '>'], "#>>"), ('@', ['>'], "@>"), ('<', ['@'], "<@"),
    ('&', ['&'], "&&"), ('&', [], "&"), ('|', [], "|"), ('#', [], "#"), ('<', ['<'], "<<"),
    ('>', ['>'], ">>"), ('+', [], "+"), ('-', [], "-"), ('*', [], "*"), ('/', [], "/"),
    ('%', [], "%"), ('^', [], "^")]

/-- An operator with a blank after it. -/
theorem Runs.sign {e : Char × List Char × String} {cs : List Char} {ts : List Token}
    (he : e ∈ writtenSigns) (h : Runs (' ' :: cs) ts) :
    Runs (e.1 :: (e.2.1 ++ ' ' :: cs)) (.symbol e.2.2 :: ts) := by
  simp only [writtenSigns, List.mem_cons, List.not_mem_nil, or_false] at he
  rcases he with rfl | rfl | rfl | rfl | rfl | rfl | rfl | rfl | rfl | rfl | rfl | rfl | rfl | rfl |
    rfl | rfl | rfl | rfl | rfl | rfl | rfl | rfl | rfl | rfl | rfl | rfl | rfl | rfl | rfl <;>
  exact Runs.token rfl (fun _ => rfl) (by decide) h

/-- The number of a parameter. -/
theorem Runs.placeholder {w cs : List Char} {ts : List Token} (hw : w.all Char.isDigit = true)
    (hne : w ≠ []) (hcs : EndsNumeral cs) (h : Runs cs ts) :
    Runs ('$' :: (w ++ cs)) (.placeholder ("$" ++ String.ofList w) :: ts) := by
  have hbelongs : w.all (fun c => Text.isAlphanumeric c || c == '_') = true := by
    rw [List.all_eq_true] at hw ⊢
    intro c hc
    have hdigit := hw c hc
    have hle : c.toNat < 128 := by
      simp only [Char.isDigit, Bool.and_eq_true, decide_eq_true_eq, UInt32.le_iff_toNat_le] at hdigit
      exact Nat.lt_of_le_of_lt hdigit.2 (by decide)
    simp [Text.isAlphanumeric, hle, Char.isAlphanum, hdigit]
  have hends : ∀ c ∈ numeralEnds, (Text.isAlphanumeric c || c == '_') = false ∧ c ≠ '$' := by decide
  obtain ⟨htake, hdrop⟩ := takeWhile_append_stop hbelongs fun c hc => (hends c (hcs c hc)).1
  refine Runs.token ?_ ?_ (by simp) h
  · rfl
  · intro afterWord
    have hdollar : dollar (w ++ cs) = .ok (.placeholder ("$" ++ String.ofList w), cs) := by
      unfold dollar
      split
      · rename_i heq
        cases w with
        | nil => exact absurd rfl hne
        | cons c w =>
          injection heq with heq
          rw [heq, List.all_cons] at hw
          exact absurd hw (by simp)
      · simp only [htake, hdrop]
        split
        · exact absurd rfl (hends _ (hcs _ rfl)).2
        · rfl
    rw [Lexer.token, introduced_other (by decide)]
    exact hdollar

/-- The tokens of a mark that is made of capital letters, blanks, parentheses and commas; `acc` holds the
letters of the word that is being read. -/
def skim (acc : List Char) : List Char → List Token
  | [] => if acc.isEmpty then [] else [.word (String.ofList acc)]
  | c :: r =>
    if c.isUpper then skim (acc ++ [c]) r
    else (if acc.isEmpty then [] else [.word (String.ofList acc)]) ++
      (if c == ' ' then [] else [.symbol c.toString]) ++ skim [] r

/-- A mark that can be skimmed. -/
def isMark (m : List Char) : Bool :=
  m.all fun c => c.isUpper || [' ', '(', ')', ','].contains c

theorem isUpper_startsWord {c : Char} (hc : c.isUpper = true) : startsWord c = true := by
  simp [startsWord, Char.isAlpha, hc]

theorem Runs.upper {w cs : List Char} {ts : List Token} (hw : w.all Char.isUpper = true)
    (hcs : w ≠ [] → EndsWord cs) (h : Runs cs ts) :
    Runs (w ++ cs) ((if w.isEmpty then [] else [.word (String.ofList w)]) ++ ts) := by
  cases w with
  | nil => exact h
  | cons c w =>
    refine Runs.word ?_ (hcs (List.cons_ne_nil c w)) h
    simp only [List.all_cons, Bool.and_eq_true, List.all_eq_true] at hw
    simp only [isWord, Bool.and_eq_true, List.all_eq_true]
    exact ⟨isUpper_startsWord hw.1, fun d hd => continuesWord_of_startsWord (isUpper_startsWord (hw.2 d hd))⟩

theorem Runs.skim {m acc cs : List Char} {ts : List Token} (hm : isMark m = true)
    (hacc : acc.all Char.isUpper = true)
    (hcs : ∀ c ∈ (acc ++ m).getLast?, c.isUpper = true → EndsWord cs) (h : Runs cs ts) :
    Runs (acc ++ (m ++ cs)) (skim acc m ++ ts) := by
  induction m generalizing acc with
  | nil =>
    refine Runs.upper hacc ?_ h
    intro hne
    rw [List.append_nil] at hcs
    have hlast := List.getLast?_eq_getLast_of_ne_nil hne
    exact hcs _ hlast (List.all_eq_true.1 hacc _ (List.getLast_mem hne))
  | cons c m ih =>
    simp only [isMark, List.all_cons, Bool.and_eq_true] at hm
    obtain ⟨hc, hm⟩ := hm
    rw [Lexer.skim]
    by_cases hupper : c.isUpper = true
    · rw [if_pos hupper]
      have hnext : (acc ++ [c]).all Char.isUpper = true := by simp [hacc, hupper]
      simpa using ih hm hnext (by simpa using hcs)
    · rw [if_neg hupper]
      have hrest : Runs (m ++ cs) (Lexer.skim [] m ++ ts) := by
        have hnil : ([] : List Char).all Char.isUpper = true := rfl
        refine ih hm hnil ?_
        intro d hd
        refine hcs d ?_
        cases m with
        | nil => cases hd
        | cons e m => simpa using hd
      have hmarks : ∀ c ∈ [' ', '(', ')', ','], c ∈ endChars := by decide
      rw [List.append_assoc, List.append_assoc]
      have hmem : c ∈ [' ', '(', ')', ','] := by simpa [hupper] using hc
      refine Runs.upper hacc ?_ ?_
      · rintro - d ⟨⟩
        exact hmarks c hmem
      · by_cases hspace : c = ' '
        · subst hspace
          exact Runs.space rfl hrest
        · rw [if_neg (by simpa using hspace)]
          refine Runs.punctuation ?_ hrest
          simp only [List.mem_cons, hspace, false_or] at hmem
          simp only [List.mem_cons]
          exact hmem.imp_right (Or.imp_right fun hcomma => .inl (hcomma.resolve_right List.not_mem_nil))

end Lexer
end SqlLayout.Sql
