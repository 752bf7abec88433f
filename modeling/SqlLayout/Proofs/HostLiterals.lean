import Mathlib
import SqlLayout.Host.Embedded

/-!
The literals of a Rust source and their places. A literal that a mark follows is closed: the next
literal starts beyond the mark, so that two closed literals never touch. An equals sign or a closing
bracket comes before it, so that no word of the source runs into it.
-/

namespace SqlLayout.Host

mutual

/-- The brackets and tokens that a tree is made of. -/
def Tree.lexemes : Tree → List Lexeme
  | .group d ts => .opening d :: treeLexemes ts ++ [.closing d]
  | .word t => [.leaf (.word t)]
  | .mark c joined => [.leaf (.mark c joined)]
  | .literal t start stop => [.leaf (.literal t start stop)]

def treeLexemes : List Tree → List Lexeme
  | [] => []
  | t :: r => t.lexemes ++ treeLexemes r

end

theorem treeLexemes_append (a b : List Tree) :
    treeLexemes (a ++ b) = treeLexemes a ++ treeLexemes b := by
  induction a with
  | nil => rfl
  | cons t r ih => simp [treeLexemes, ih]

/-- A text in a source: what it stands for, and the places where its literal starts and stops. -/
structure Span where
  value : String
  start : Nat
  stop : Nat

/-- A literal may be a value after it: an equals sign, or the end of an attribute. -/
def Lexeme.opensValue : Lexeme → Bool
  | .leaf (.mark c _) => c == '='
  | .closing _ => true
  | _ => false

/-- The text of a lexeme if it is a literal that opens as a value and a mark comes next. -/
def closedBy (before : Option Lexeme) : Lexeme → Option Lexeme → List Span
  | .leaf (.literal text start stop), some (.leaf (.mark _ _)) =>
    if isText text && before.any Lexeme.opensValue then [⟨textOf text, start, stop⟩] else []
  | _, _ => []

/-- The closed text literals of lexemes after the given one. -/
def closedAfter (before : Option Lexeme) : List Lexeme → List Span
  | [] => []
  | l :: r => closedBy before l r.head? ++ closedAfter (some l) r

/-- The closed text literals. -/
def closedSpans (ls : List Lexeme) : List Span :=
  closedAfter none ls

theorem closedBy_none (before : Option Lexeme) (l : Lexeme) : closedBy before l none = [] := by
  unfold closedBy
  split
  · contradiction
  · rfl

theorem closedBy_of_not_isText {text : String} {start stop : Nat} (h : isText text = false)
    (before next : Option Lexeme) : closedBy before (.leaf (.literal text start stop)) next = [] := by
  unfold closedBy
  split
  · rename_i heq
    injection heq with heq
    injection heq with heq
    rw [← heq, h]
    rfl
  · rfl

/-- Nothing is closed after nothing. -/
theorem closedBy_of_none (l : Lexeme) (next : Option Lexeme) : closedBy none l next = [] := by
  unfold closedBy
  split <;> simp

theorem closedSpans_sublist (before : Option Lexeme) (ls : List Lexeme) :
    (closedSpans ls).Sublist (closedAfter before ls) := by
  cases ls with
  | nil => exact List.Sublist.refl _
  | cons l r =>
    rw [closedSpans, closedAfter, closedBy_of_none, List.nil_append, closedAfter]
    exact List.sublist_append_right _ _

theorem closedAfter_append_sublist (before : Option Lexeme) (a b : List Lexeme) :
    (closedAfter before a ++ closedSpans b).Sublist (closedAfter before (a ++ b)) := by
  induction a generalizing before with
  | nil => exact closedSpans_sublist before b
  | cons l r ih =>
    simp only [List.cons_append, closedAfter, List.append_assoc]
    cases r with
    | nil =>
      simp only [List.head?_nil, closedBy_none, closedAfter, List.nil_append]
      exact (closedSpans_sublist (some l) b).trans (List.sublist_append_right _ _)
    | cons m r => exact List.Sublist.append (List.Sublist.refl _) (ih (some l))

theorem closedSpans_append_sublist (a b : List Lexeme) :
    (closedSpans a ++ closedSpans b).Sublist (closedSpans (a ++ b)) :=
  closedAfter_append_sublist none a b

/-- A literal at the end is closed by the mark after it. -/
theorem closedSpans_literal_mark (a : List Lexeme) {opener : Lexeme} {text : String} (start stop : Nat)
    (c : Char) (joined : Bool) (hopens : opener.opensValue) (htext : isText text) :
    closedSpans (a ++ [opener, .leaf (.literal text start stop), .leaf (.mark c joined)]) =
      closedSpans (a ++ [opener, .leaf (.literal text start stop)]) ++ [⟨textOf text, start, stop⟩] := by
  rw [closedSpans, closedSpans]
  generalize (none : Option Lexeme) = before
  induction a generalizing before with
  | nil => simp [closedAfter, closedBy, htext, hopens]
  | cons l r ih =>
    simp only [List.cons_append, closedAfter, ih, List.append_assoc]
    cases r with
    | nil => rfl
    | cons m r => rfl

/-! ### Places in a text -/

/-- A literal with this value stands at these places. -/
def Span.StandsIn (s : Span) (code : List Char) : Prop :=
  ∃ text, isText text ∧ textOf text = s.value ∧
    text.toList = (code.drop s.start).take (s.stop - s.start)

/-- Literals from `least` on that keep a distance, the last one before the end. -/
def Spaced (code : List Char) : Nat → List Span → Prop
  | _, [] => True
  | least, s :: r => least ≤ s.start ∧ s.stop < code.length ∧ s.StandsIn code ∧ Spaced code (s.stop + 1) r

theorem Spaced.mono {code : List Char} {least least' : Nat} {l : List Span}
    (h : Spaced code least l) (hle : least' ≤ least) : Spaced code least' l := by
  cases l with
  | nil => trivial
  | cons s r => exact ⟨Nat.le_trans hle h.1, h.2⟩

/-- The brackets and tokens that a lexeme stands for. -/
def Lexeme.flat : Lexeme → List Lexeme
  | .leaf t => t.lexemes
  | l => [l]

/-- The brackets and tokens that lexemes stand for. -/
def flatten (ls : List Lexeme) : List Lexeme :=
  ls.flatMap Lexeme.flat

/-- What stands at the front of a text: one literal, or lexemes that close no literal among
themselves. -/
inductive Chunk (offset : Nat) (cs : List Char) : Nat → List Lexeme → Prop
  | literal (n : Nat) :
    Chunk offset cs n [.leaf (.literal (String.ofList (cs.take n)) offset (offset + n))]
  | other (n : Nat) (ls : List Lexeme)
    (spans : ∀ before r, closedAfter before (flatten ls ++ r) =
      closedAfter ((flatten ls).getLast?.or before) r)
    (mark : ∀ c joined, (flatten ls).head? = some (.leaf (.mark c joined)) → 1 ≤ n) :
    Chunk offset cs n ls

theorem Chunk.single {offset n : Nat} {cs : List Char} {l : Lexeme} (hflat : flatten [l] = [l])
    (hl : ∀ before next, closedBy before l next = [])
    (hn : ∀ c joined, l = .leaf (.mark c joined) → 1 ≤ n) : Chunk offset cs n [l] := by
  refine .other n [l] ?_ ?_
  · intro before r
    simp [hflat, closedAfter, hl]
  · intro c joined h
    exact hn c joined (by simpa [hflat] using h)

/-- A mark is the first character of a text. -/
theorem mark?_eq_some {cs : List Char} {t : Tree} (h : mark? cs = some t) :
    ∃ c joined, t = .mark c joined ∧ ∃ r, cs = c :: r := by
  unfold mark? at h
  split at h
  · obtain ⟨n, -, h⟩ := Option.bind_eq_some_iff.1 h
    split at h
    · cases h
    · split at h
      · cases h
        exact ⟨_, _, rfl, _, rfl⟩
      · cases h
    · cases h
      exact ⟨_, _, rfl, _, rfl⟩
  · split at h
    · cases h
      exact ⟨_, _, rfl, _, rfl⟩
    · cases h
  · cases h

theorem leaf?_chunk {offset n : Nat} {cs : List Char} {t : Tree} (h : leaf? offset cs = some (t, n)) :
    Chunk offset cs n [.leaf t] := by
  unfold leaf? at h
  split at h
  · cases h
    exact .literal _
  · split at h
    · rename_i m hm
      cases h
      obtain ⟨c, joined, rfl, -⟩ := mark?_eq_some hm
      exact .single rfl (fun _ _ => rfl) fun _ _ _ => Nat.le_refl 1
    · split at h
      · cases h
      · obtain ⟨k, -, h⟩ := Option.map_eq_some_iff.1 h
        cases h
        exact .single rfl (fun _ _ => rfl) (by simp)

theorem le_commentEnd? {depth n m : Nat} {cs : List Char} (h : commentEnd? depth n cs = some m) :
    n + 2 ≤ m := by
  fun_induction commentEnd? depth n cs with
  | case1 depth n r ih =>
    have := ih h
    omega
  | case2 depth n r hd =>
    cases h
    exact Nat.le_refl _
  | case3 depth n r hd ih =>
    have := ih h
    omega
  | case4 depth n c r _ _ ih =>
    have := ih h
    omega
  | case5 => cases h

theorem lineLength_pos {c : Char} {cs : List Char} (h : c = '/') : 1 ≤ lineLength (c :: cs) := by
  subst h
  simp [lineLength]

theorem startsWith_cons {cs : List Char} {c : Char} {r : List Char} {s : String}
    (hs : s.toList = c :: r) (h : startsWith cs s = true) : ∃ r', cs = c :: r' := by
  rw [startsWith, hs] at h
  cases cs with
  | nil => simp at h
  | cons d r' =>
    simp only [List.isPrefixOf_cons_cons, Bool.and_eq_true, beq_iff_eq] at h
    exact ⟨r', by rw [h.1]⟩

theorem docLength?_pos {cs : List Char} {n : Nat} {inner : Bool}
    (h : docLength? cs = some (n, inner)) : 1 ≤ n := by
  have hline : ∀ {s : String} {r : List Char}, s.toList = '/' :: r → startsWith cs s = true →
      1 ≤ lineLength cs := by
    intro s r hs hstart
    obtain ⟨r', rfl⟩ := startsWith_cons hs hstart
    exact lineLength_pos rfl
  have hcomment : ∀ {inner' : Bool}, (commentEnd? 0 0 cs).map (·, inner') = some (n, inner) →
      1 ≤ n := by
    intro inner' hmap
    obtain ⟨m, hm, hpair⟩ := Option.map_eq_some_iff.1 hmap
    cases hpair
    have := le_commentEnd? hm
    omega
  unfold docLength? at h
  split at h
  · rename_i hstart
    cases h
    exact hline rfl hstart
  · split at h
    · exact hcomment h
    · split at h
      · rename_i hstart
        cases h
        exact hline rfl (Bool.and_eq_true _ _ ▸ hstart).1
      · split at h
        · exact hcomment h
        · cases h

theorem brackets_lookup {c : Char} {l : Lexeme} (h : brackets.lookup c = some l) :
    ∃ d, l = .opening d ∨ l = .closing d := by
  simp only [brackets, List.lookup] at h
  split at h
  · cases h
    exact ⟨_, .inl rfl⟩
  · split at h
    · cases h
      exact ⟨_, .inl rfl⟩
    · split at h
      · cases h
        exact ⟨_, .inl rfl⟩
      · split at h
        · cases h
          exact ⟨_, .inr rfl⟩
        · split at h
          · cases h
            exact ⟨_, .inr rfl⟩
          · split at h
            · cases h
              exact ⟨_, .inr rfl⟩
            · cases h

theorem isText_faultyToken : isText faultyToken = false := by
  decide +kernel

/-- What stands at the front of a text, as a chunk. -/
theorem lexemes?_chunk {offset n : Nat} {cs : List Char} {ls : List Lexeme}
    (h : lexemes? offset cs = some (ls, n)) : Chunk offset cs n ls := by
  unfold lexemes? at h
  split at h
  · cases h
    exact .other _ _ (fun before r => rfl) (by simp [flatten])
  · split at h
    · rename_i m inner hdoc
      split at h
      · cases h
      · cases h
        refine .other _ _ ?_ fun _ _ _ => docLength?_pos hdoc
        intro before r
        cases inner <;>
          simp [docTrees, flatten, Lexeme.flat, Tree.lexemes, treeLexemes, closedAfter, closedBy]
    · split at h
      · cases h
        exact .single rfl (closedBy_of_not_isText isText_faultyToken) (by simp)
      · split at h
        · rename_i l hl
          cases h
          obtain ⟨c, -, hc⟩ := Option.bind_eq_some_iff.1 hl
          obtain ⟨d, rfl | rfl⟩ := brackets_lookup hc
          · exact .single rfl (fun _ _ => rfl) (by simp)
          · exact .single rfl (fun _ _ => rfl) (by simp)
        · obtain ⟨⟨t, k⟩, hleaf, h⟩ := Option.map_eq_some_iff.1 h
          cases h
          exact leaf?_chunk hleaf

/-! ### Lexemes of a text -/

/-- The lexemes of a text from a place on. -/
inductive Lexed (code : List Char) : Nat → List Lexeme → Prop
  | nil {offset : Nat} (h : code.length ≤ offset) : Lexed code offset []
  | cons {offset n : Nat} {ls rest : List Lexeme} (hoffset : offset < code.length)
    (h : lexemes? offset (code.drop offset) = some (ls, n)) (hrest : Lexed code (offset + n) rest) :
    Lexed code offset (ls ++ rest)

theorem lexFrom_step {code : List Char} {fuel offset : Nat} (hoffset : offset < code.length)
    (acc : List Lexeme) :
    lexFrom (fuel + 1) offset acc (code.drop offset) =
      (lexemes? offset (code.drop offset)).bind fun (ls, n) =>
        lexFrom fuel (offset + n) (ls.reverse ++ acc) (code.drop (offset + n)) := by
  simp only [← List.drop_drop]
  rw [List.drop_eq_getElem_cons hoffset]
  rfl

theorem lexed_of_lexFrom {code : List Char} {fuel offset : Nat} {acc out : List Lexeme}
    (h : lexFrom fuel offset acc (code.drop offset) = some out) :
    ∃ ls, out = ls.reverse ++ acc ∧ Lexed code offset ls := by
  induction fuel generalizing offset acc with
  | zero =>
    obtain hoffset | hoffset := Nat.lt_or_ge offset code.length
    · rw [List.drop_eq_getElem_cons hoffset] at h
      cases h
    · rw [List.drop_eq_nil_of_le hoffset] at h
      cases h
      exact ⟨[], rfl, .nil hoffset⟩
  | succ fuel ih =>
    obtain hoffset | hoffset := Nat.lt_or_ge offset code.length
    · rw [lexFrom_step hoffset] at h
      obtain ⟨⟨ls, n⟩, hls, h⟩ := Option.bind_eq_some_iff.1 h
      obtain ⟨rest, rfl, hrest⟩ := ih h
      exact ⟨ls ++ rest, by simp, .cons hoffset hls hrest⟩
    · rw [List.drop_eq_nil_of_le hoffset] at h
      cases h
      exact ⟨[], rfl, .nil hoffset⟩

/-- The closed literals of lexemes that start at a place keep a distance, also to a mark in front. -/
def Settled (code : List Char) (offset : Nat) (ls : List Lexeme) : Prop :=
  (∀ before, Spaced code offset (closedAfter before ls)) ∧
    ∀ c joined, ls.head? = some (.leaf (.mark c joined)) →
      offset < code.length ∧ ∀ before, Spaced code (offset + 1) (closedAfter before ls)

theorem Settled.nil (code : List Char) (offset : Nat) : Settled code offset [] :=
  ⟨fun _ => trivial, by simp⟩

theorem Settled.literal {code : List Char} {offset n : Nat} {b : List Lexeme}
    (hb : Settled code (offset + n) b) :
    Settled code offset
      (.leaf (.literal (String.ofList ((code.drop offset).take n)) offset (offset + n)) :: b) := by
  have hrest (before : Option Lexeme) := (hb.1 before).mono (Nat.le_add_right offset n)
  refine ⟨fun before => ?_, by simp⟩
  by_cases hmark : ∃ c joined, b.head? = some (.leaf (.mark c joined))
  · obtain ⟨c, joined, hhead⟩ := hmark
    obtain ⟨hstop, hspaced⟩ := hb.2 c joined hhead
    simp only [closedAfter, hhead, closedBy]
    split
    · rename_i htext
      rw [Bool.and_eq_true] at htext
      exact ⟨Nat.le_refl _, hstop, ⟨_, htext.1, rfl, by simp⟩, hspaced _⟩
    · exact hrest _
  · have hopen : closedBy before (.leaf (.literal (String.ofList ((code.drop offset).take n)) offset
        (offset + n))) b.head? = [] := by
      unfold closedBy
      split
      · rename_i hhead
        exact absurd ⟨_, _, hhead⟩ hmark
      · rfl
    rw [closedAfter, hopen]
    exact hrest _

theorem Settled.chunk {code : List Char} {offset n : Nat} {ls b : List Lexeme}
    (ha : Chunk offset (code.drop offset) n ls) (hb : Settled code (offset + n) b)
    (hoffset : offset < code.length) : Settled code offset (flatten ls ++ b) := by
  cases ha with
  | literal => exact hb.literal
  | other ls spans mark =>
    refine ⟨fun before => ?_, ?_⟩
    · rw [spans]
      exact (hb.1 _).mono (Nat.le_add_right _ _)
    · intro c joined h
      refine ⟨hoffset, fun before => ?_⟩
      rw [spans]
      cases hls : flatten ls with
      | nil =>
        rw [hls] at h
        obtain ⟨-, hspaced⟩ := hb.2 c joined h
        exact (hspaced _).mono (by omega)
      | cons l r =>
        have := mark c joined (by simpa [hls] using h)
        exact (hb.1 _).mono (by omega)

theorem Lexed.settled {code : List Char} {offset : Nat} {ls : List Lexeme} (h : Lexed code offset ls) :
    Settled code offset (flatten ls) := by
  induction h with
  | nil => exact .nil _ _
  | cons hoffset h _ ih =>
    rw [flatten, List.flatMap_append]
    exact Settled.chunk (lexemes?_chunk h) ih hoffset

/-- The lexemes of the groups around, up to the bracket that opens the last one. -/
def outerLexemes : List (Delimiter × List Tree) → List Lexeme
  | [] => []
  | (d, before) :: outer => outerLexemes outer ++ treeLexemes before.reverse ++ [.opening d]

theorem groupLexemes_lexemes {outer : List (Delimiter × List Tree)} {trees : List Tree}
    {ls : List Lexeme} {result : List Tree} (h : groupLexemes outer trees ls = some result) :
    treeLexemes result =
      outerLexemes outer ++ treeLexemes trees.reverse ++ flatten ls := by
  induction ls generalizing outer trees with
  | nil =>
    cases outer with
    | nil =>
      cases h
      simp [outerLexemes, flatten]
    | cons o outer => cases h
  | cons l r ih =>
    cases l with
    | opening d =>
      rw [ih h]
      simp [outerLexemes, treeLexemes, flatten, Lexeme.flat]
    | closing d =>
      cases outer with
      | nil => cases h
      | cons o outer =>
        obtain ⟨e, before⟩ := o
        simp only [groupLexemes] at h
        split at h
        · rename_i hd
          cases eq_of_beq hd
          rw [ih h]
          simp [outerLexemes, treeLexemes_append, treeLexemes, Tree.lexemes, flatten, Lexeme.flat]
        · cases h
    | leaf t =>
      rw [ih h]
      simp [treeLexemes_append, treeLexemes, flatten, Lexeme.flat]

/-- The trees of a text hold its lexemes from a place on. In front of that place there is a byte order
mark at most. -/
theorem trees?_lexed {code : List Char} {ts : List Tree} (h : trees? code = some ts) :
    ∃ start ls, Lexed code start ls ∧ groupLexemes [] [] ls = some ts ∧ treeLexemes ts = flatten ls ∧
      (start = 0 ∨ code.head? = some '\uFEFF') := by
  obtain ⟨out, hout, hts⟩ := Option.bind_eq_some_iff.1 h
  obtain ⟨ls, rfl, hls⟩ := lexed_of_lexFrom hout
  rw [List.append_nil, List.reverse_reverse] at hts
  refine ⟨_, ls, hls, hts, by simpa [outerLexemes, treeLexemes] using groupLexemes_lexemes hts, ?_⟩
  split
  · rename_i hmark
    exact .inr (eq_of_beq hmark)
  · exact .inl rfl

/-- The closed literals of a text keep a distance to each other and to its end. -/
theorem trees?_spaced {code : List Char} {ts : List Tree} (h : trees? code = some ts) :
    Spaced code 0 (closedSpans (treeLexemes ts)) := by
  obtain ⟨start, ls, hls, -, hflat, -⟩ := trees?_lexed h
  rw [hflat]
  exact (hls.settled.1 none).mono (Nat.zero_le start)

/-- A text that starts with a line break has no literal in its first line. -/
theorem trees?_spaced_newline {r : List Char} {ts : List Tree} (h : trees? ('\n' :: r) = some ts) :
    Spaced ('\n' :: r) 1 (closedSpans (treeLexemes ts)) := by
  obtain ⟨out, hout, hts⟩ := Option.bind_eq_some_iff.1 h
  have hstep : lexFrom r.length 1 [] (('\n' :: r).drop 1) = some out := hout
  obtain ⟨ls, rfl, hls⟩ := lexed_of_lexFrom hstep
  rw [groupLexemes_lexemes hts]
  simpa [closedSpans, outerLexemes, treeLexemes] using hls.settled.1 none

end SqlLayout.Host
