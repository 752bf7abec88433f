import SqlLayout.Proofs.Congruence

/-!
What a layout owes to its style. Any two styles lay a statement out with the same wording: the texts
differ in the blanks between two words and in the case of letters, and nowhere else.
-/

namespace SqlLayout.Text

/-- A blank, a tab, or a character that ends a line. -/
def isGap (c : Char) : Bool :=
  c == ' ' || c == '\t' || c == '\n' || c == '\r'

/-- Each run of gaps becomes one blank; `inGap` tells that a run is going on. -/
def squeezed (inGap : Bool) : List Char → List Char
  | [] => []
  | c :: r =>
    if isGap c then (if inGap then [] else [' ']) ++ squeezed true r else c :: squeezed false r

/-- The text with one blank for each maximal run of gaps, and its ASCII letters in lower case. -/
def wording (t : String) : String :=
  String.ofList (squeezed false (asciiLower t).toList)

@[simp] theorem asciiLower_append (t u : String) :
    asciiLower (t ++ u) = asciiLower t ++ asciiLower u := by
  simp [asciiLower]

/-- A run that goes on takes in every gap that follows it. -/
theorem squeezed_gaps {gaps : List Char} (h : ∀ c ∈ gaps, isGap c) (r : List Char) :
    squeezed true (gaps ++ r) = squeezed true r := by
  induction gaps with
  | nil => rfl
  | cons c gaps ih =>
    have hc : isGap c := h c List.mem_cons_self
    have hrest := ih fun x hx => h x (List.mem_cons_of_mem c hx)
    simp [squeezed, hc, hrest]

/-- What follows a text may be exchanged for something that is squeezed alike. -/
theorem squeezed_append_congr {u v : List Char} (h : ∀ inGap, squeezed inGap u = squeezed inGap v)
    (cs : List Char) (inGap : Bool) : squeezed inGap (cs ++ u) = squeezed inGap (cs ++ v) := by
  induction cs generalizing inGap with
  | nil => exact h inGap
  | cons c cs ih => simp [squeezed, ih]

/-- No capital letter becomes a sign or another character below the small letters. -/
theorem eq_of_toLower_eq {c x : Char} (hx : x.toNat < 97) (h : c.toLower = x) : c = x := by
  unfold Char.toLower at h
  split at h
  · rename_i hc
    have hval := congrArg (fun c : Char => c.val.toNat) h
    have hx' : x.val.toNat < 97 := hx
    simp only [UInt32.le_iff_toNat_le, UInt32.toNat_add] at hc hval
    have hshift : ('a'.val - 'A'.val).toNat = 32 := by decide
    have hlow : 'A'.val.toNat = 65 := by decide
    have hhigh : 'Z'.val.toNat = 90 := by decide
    omega
  · exact h

end SqlLayout.Text

namespace SqlLayout.Layout

open Piece (newline)
open Text (squeezed wording isGap)

/-- The characters of laid-out text, with ASCII letters in lower case. -/
def Piece.lowered (s : Style) (ps : List Piece) : List Char :=
  (Text.asciiLower (Piece.textOf s ps)).toList

@[simp] theorem Piece.lowered_append (s : Style) (ps qs : List Piece) :
    lowered s (ps ++ qs) = lowered s ps ++ lowered s qs := by
  simp [lowered]

theorem Piece.lowered_cons (s : Style) (p : Piece) (ps : List Piece) :
    lowered s (p :: ps) = (Text.asciiLower (p.text s)).toList ++ lowered s ps := by
  simp [lowered]

theorem Piece.lowered_newline (s : Style) (d : Nat) (ps : List Piece) :
    lowered s (newline d ++ ps) =
      '\n' :: ((Text.asciiLower (s.indentBy d)).toList ++ lowered s ps) := by
  simp [newline, lowered_cons, Piece.text, Text.asciiLower]

theorem gap_of_mem_indent {s : Style} {d : Nat} :
    ∀ c ∈ (Text.asciiLower (s.indentBy d)).toList, isGap c := by
  induction d with
  | zero => simp [Style.indentBy, Text.replicate, Text.asciiLower]
  | succ d ih =>
    have hunit : ∀ c ∈ (Text.asciiLower s.indent.text).toList, isGap c := by
      cases s.indent <;> decide
    simp only [Style.indentBy, Text.replicate, Text.asciiLower_append, String.toList_append,
      List.forall_mem_append]
    exact ⟨hunit, ih⟩

/-- The case of a function name is all that the style changes in it. -/
theorem lower_casedName (c c' : NameCase) (name : String) :
    Text.asciiLower (casedName c name) = Text.asciiLower (casedName c' name) := by
  have hlower (c : NameCase) : Text.asciiLower (casedName c name) = Text.asciiLower name := by
    simpa [Text.eqIgnoreCase] using casedName_eqIgnoreCase c name
  rw [hlower c, hlower c']

/-- A line break counts as one blank together with the gaps around it. -/
theorem squeezed_newline (s : Style) (d : Nat) (ps : List Piece) (inGap : Bool) (rest : List Char) :
    squeezed inGap (Piece.lowered s (newline d ++ ps) ++ rest) =
      (if inGap then [] else [' ']) ++ squeezed true (Piece.lowered s ps ++ rest) := by
  have hbreak : isGap '\n' := rfl
  rw [Piece.lowered_newline, List.cons_append, List.append_assoc, squeezed, if_pos hbreak,
    Text.squeezed_gaps gap_of_mem_indent]

/-- Whether a text starts with a sign can be told from its wording. -/
theorem startsWithSign_eq_head? (s : Style) (ps : List Piece) :
    startsWithSign s ps =
      (squeezed false (Piece.lowered s ps)).head?.any fun c => c == '-' || c == '+' := by
  unfold startsWithSign Piece.lowered Text.asciiLower
  rw [String.toList_ofList]
  cases (Piece.textOf s ps).toList with
  | nil => rfl
  | cons c r =>
    by_cases hminus : c = '-'
    · subst hminus
      rfl
    by_cases hplus : c = '+'
    · subst hplus
      rfl
    have hminus' : c.toLower ≠ '-' := fun h => hminus (Text.eq_of_toLower_eq (by decide) h)
    have hplus' : c.toLower ≠ '+' := fun h => hplus (Text.eq_of_toLower_eq (by decide) h)
    by_cases hgap : isGap c.toLower <;> simp [squeezed, hgap, hminus', hplus', hminus, hplus]

/-! ### Pieces with one wording -/

/-- Pieces that have one wording in two styles, after any text and before any text. -/
def Alike (s s' : Style) (ps qs : List Piece) : Prop :=
  ∀ inGap rest,
    squeezed inGap (Piece.lowered s ps ++ rest) = squeezed inGap (Piece.lowered s' qs ++ rest)

variable {s s' : Style} {d d' : Nat} {ps qs ps' qs' : List Piece}

namespace Alike

theorem wording_eq (h : Alike s s' ps qs) :
    wording (Piece.textOf s ps) = wording (Piece.textOf s' qs) := by
  have heq := h false []
  rw [List.append_nil, List.append_nil] at heq
  exact congrArg String.ofList heq

theorem startsWithSign_eq (h : Alike s s' ps qs) : startsWithSign s ps = startsWithSign s' qs := by
  have heq := h false []
  rw [List.append_nil, List.append_nil] at heq
  rw [startsWithSign_eq_head?, startsWithSign_eq_head?, heq]

theorem nil : Alike s s' [] [] :=
  fun _ _ => rfl

theorem text {p q : Piece} (hp : Text.asciiLower (p.text s) = Text.asciiLower (q.text s'))
    (h : Alike s s' ps qs) : Alike s s' (p :: ps) (q :: qs) := by
  intro inGap rest
  rw [Piece.lowered_cons, Piece.lowered_cons, hp, List.append_assoc, List.append_assoc]
  exact Text.squeezed_append_congr (fun g => h g rest) _ inGap

theorem mark (m : String) (h : Alike s s' ps qs) : Alike s s' (.mark m :: ps) (.mark m :: qs) :=
  text rfl h

theorem leaf (t : String) (h : Alike s s' ps qs) : Alike s s' (.leaf t :: ps) (.leaf t :: qs) :=
  text rfl h

theorem lineBreak (h : Alike s s' ps qs) : Alike s s' (.lineBreak :: ps) (.lineBreak :: qs) :=
  text rfl h

theorem append (h : Alike s s' ps qs) (h' : Alike s s' ps' qs') :
    Alike s s' (ps ++ ps') (qs ++ qs') := by
  intro inGap rest
  calc squeezed inGap (Piece.lowered s (ps ++ ps') ++ rest)
      = squeezed inGap (Piece.lowered s ps ++ (Piece.lowered s ps' ++ rest)) := by
        rw [Piece.lowered_append, List.append_assoc]
    _ = squeezed inGap (Piece.lowered s' qs ++ (Piece.lowered s ps' ++ rest)) := h inGap _
    _ = squeezed inGap (Piece.lowered s' qs ++ (Piece.lowered s' qs' ++ rest)) :=
        Text.squeezed_append_congr (fun g => h' g rest) _ inGap
    _ = squeezed inGap (Piece.lowered s' (qs ++ qs') ++ rest) := by
        rw [Piece.lowered_append, List.append_assoc]

theorem symm (h : Alike s s' ps qs) : Alike s' s qs ps :=
  fun inGap rest => (h inGap rest).symm

/-- After a line break the depth of the line does not show. -/
theorem newline (d d' : Nat) (h : Alike s s' ps qs) :
    Alike s s' (Piece.newline d ++ ps) (Piece.newline d' ++ qs) := by
  intro inGap rest
  rw [squeezed_newline, squeezed_newline, h true rest]

/-- A blank stands for a line break. -/
theorem blank (m : String) (d : Nat) (h : Alike s s' ps qs) :
    Alike s s' (.mark (" " ++ m) :: ps) (Piece.newline d ++ .mark m :: qs) := by
  intro inGap rest
  have hmark : Piece.lowered s (.mark (" " ++ m) :: ps) = ' ' :: Piece.lowered s (.mark m :: ps) := by
    simp [Piece.lowered, Piece.text, Text.asciiLower]
  rw [squeezed_newline, ← mark m h true rest, hmark]
  rfl

/-- Whether signs are set apart does not hang on the style. -/
theorem signs (h : Alike s s' ps qs) :
    Alike s s' ((if startsWithSign s ps then [.mark " "] else []) ++ ps)
      ((if startsWithSign s' qs then [.mark " "] else []) ++ qs) := by
  rw [h.startsWithSign_eq]
  split
  · exact mark " " h
  · exact h

end Alike

/-- Pieces with one wording where a line starts: after a line break, and at the start of a text that
is not indented. -/
structure AlikeLine (s s' : Style) (d d' : Nat) (ps qs : List Piece) : Prop where
  afterBreak : Alike s s' (.lineBreak :: ps) (.lineBreak :: qs)
  atStart : d = 0 → d' = 0 → Alike s s' ps qs

namespace AlikeLine

theorem nil : AlikeLine s s' d d' [] [] :=
  ⟨.lineBreak .nil, fun _ _ => .nil⟩

theorem indent (h : Alike s s' ps qs) : AlikeLine s s' d d' (.indent d :: ps) (.indent d' :: qs) := by
  refine ⟨.newline d d' h, ?_⟩
  rintro rfl rfl
  exact .text rfl h

theorem append (h : AlikeLine s s' d d' ps qs) (h' : Alike s s' ps' qs') :
    AlikeLine s s' d d' (ps ++ ps') (qs ++ qs') :=
  ⟨h.afterBreak.append h', fun hd hd' => (h.atStart hd hd').append h'⟩

end AlikeLine

/-- Layouts in two styles have one wording. -/
def Alike.congruence (s s' : Style) : Congruence s s' where
  Rel := Alike s s'
  Line := AlikeLine s s'
  Depth _ _ := True
  Blank := True
  nil := .nil
  mark m _ := .mark m .nil
  leaf t := .leaf t .nil
  function name := .text (lower_casedName s.functionCase s'.functionCase name) .nil
  append := Alike.append
  signs := Alike.signs
  on {ps qs d d'} h _ := by
    have h {e e' : Nat} : Alike s s' (ps e) (qs e') := h trivial
    split <;> split
    · exact (Alike.newline _ _ (.mark "ON " .nil)).append h
    · exact (Alike.symm (.blank "ON " _ .nil)).append h
    · exact (Alike.blank "ON " _ .nil).append h
    · exact .mark " ON " h
  empty _ := .nil
  indent _ h := .indent h
  continued := AlikeLine.append
  afterBreak h := h.afterBreak
  succ _ := trivial
  join _ := trivial

theorem Alike.atLeft (s s' : Style) : (congruence s s').AtLeft where
  blank := trivial
  depth := trivial
  start h := h.atStart rfl rfl

theorem statement_alike (s s' : Style) (t : Statement) : Alike s s' (t.pieces s) (t.pieces s') :=
  (Alike.atLeft s s').statement_congr t

/-- Styles change the blanks and the case of a layout, and nothing else. -/
theorem wording_render (t : Statement) (s s' : Style) : wording (t.render s) = wording (t.render s') :=
  (statement_alike s s' t).wording_eq

end SqlLayout.Layout
