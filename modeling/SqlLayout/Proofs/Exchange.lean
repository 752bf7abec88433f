import SqlLayout.Proofs.Congruence
import SqlLayout.Proofs.Restoring

/-!
Exchanges of a character. Where lines are indented further, or with another unit, a character that ends
or indents a line becomes a text and every other character stays. Two lists of pieces are related when
the text of the second is that of the first after the exchange.
-/

namespace SqlLayout.Layout

open Piece (newline sepBy commas leaves)

/-! ### The characters of a text -/

/-- The characters with a text in place of each `a`. -/
def exchanged (a : Char) (text cs : List Char) : List Char :=
  cs.flatMap fun c => if c = a then text else [c]

section Exchanged

variable {a c : Char} {text : List Char}

@[simp] theorem exchanged_nil : exchanged a text [] = [] := rfl

@[simp] theorem exchanged_append (cs ds : List Char) :
    exchanged a text (cs ++ ds) = exchanged a text cs ++ exchanged a text ds :=
  List.flatMap_append

@[simp] theorem exchanged_cons_self (cs : List Char) :
    exchanged a text (a :: cs) = text ++ exchanged a text cs := by
  simp [exchanged]

theorem exchanged_cons_of_ne (h : c ≠ a) (cs : List Char) :
    exchanged a text (c :: cs) = c :: exchanged a text cs := by
  simp [exchanged, h]

theorem exchanged_of_not_mem {cs : List Char} (h : a ∉ cs) : exchanged a text cs = cs := by
  induction cs with
  | nil => rfl
  | cons c r ih =>
    obtain ⟨hc, hr⟩ := not_or.1 (List.mem_cons.not.1 h)
    rw [exchanged_cons_of_ne (Ne.symm hc), ih hr]

theorem not_mem_exchanged {cs : List Char} (htext : c ∉ text) (h : c ∉ cs) :
    c ∉ exchanged a text cs := by
  rw [exchanged, List.mem_flatMap]
  rintro ⟨x, hx, hmem⟩
  split at hmem
  · exact htext hmem
  · exact h (List.mem_singleton.1 hmem ▸ hx)

theorem toList_replaceAll {old : String} (h : old.toList = [a]) (new t : String) :
    (Text.replaceAll old new t).toList = exchanged a new.toList t.toList := by
  rw [Text.replaceAll, String.toList_ofList, h, Text.replaceFrom_singleton, exchanged]

end Exchanged

/-- The character is not in the text that stands in the tree. -/
def Leaf.Lacks (c : Char) : Leaf → Prop
  | .text t | .operator t | .function t | .keyword t => c ∉ t.toList
  | .const (.number t) | .const (.string t) => c ∉ t.toList
  | .const (.boolean _) | .const .null | .param _ => True

instance (c : Char) : DecidablePred (Leaf.Lacks c)
  | .text t | .operator t | .function t | .keyword t | .const (.number t) | .const (.string t) =>
    inferInstanceAs (Decidable (c ∉ t.toList))
  | .const (.boolean _) | .const .null | .param _ => .isTrue trivial

variable {c : Char}

theorem IsFlat.not_mem {t : String} (h : IsFlat t) (hc : IsRuling c) : c ∉ t.toList :=
  fun hmem => h c hmem hc

theorem not_mem_operatorText (hc : IsRuling c) {op : String} (h : c ∉ op.toList) :
    c ∉ (operatorText op).toList := by
  have hflat : IsFlat "!=" := by decide
  unfold operatorText
  split
  · exact hflat.not_mem hc
  · exact h

theorem not_mem_asciiUpper (hc : IsRuling c) {name : String} (h : c ∉ name.toList) :
    c ∉ (Text.asciiUpper name).toList := by
  have hcapital : ¬ Text.IsCapital c := by rcases hc with rfl | rfl <;> simp [Text.IsCapital]
  rw [Text.asciiUpper, String.toList_ofList, List.mem_map]
  rintro ⟨x, hx, hmem⟩
  exact h (Text.eq_of_toUpper_eq hcapital hmem ▸ hx)

theorem not_mem_casedName (hc : IsRuling c) (x : NameCase) {name : String} (h : c ∉ name.toList) :
    c ∉ (casedName x name).toList := by
  have hknown : ∀ n ∈ knownFunctions, IsFlat n := by decide
  unfold casedName knownName?
  cases hfind : knownFunctions.find? (Text.eqIgnoreCase · name) with
  | none => exact h
  | some n =>
    have hn := (hknown n (List.mem_of_find?_eq_some hfind)).not_mem hc
    cases x with
    | lower => exact hn
    | upper => exact not_mem_asciiUpper hc hn

theorem not_mem_upper_of_ruling (hc : IsRuling c) {word : String} (h : c ∉ word.toList) :
    c ∉ (Text.upper word).toList := by
  have hcapital : ¬ Text.IsCapital c ∧ c ≠ '\x00' := by
    rcases hc with rfl | rfl <;> simp [Text.IsCapital]
  rw [Text.upper_toList, List.mem_flatMap]
  rintro ⟨x, hx, hmem⟩
  exact h (Text.eq_of_mem_upperLetter hcapital.1 hcapital.2 hmem ▸ hx)

theorem not_mem_quoted (hc : IsRuling c) {t : String} (h : c ∉ t.toList) :
    c ∉ (Const.string t).text.toList := by
  have hquote : c ≠ '\'' := by rcases hc with rfl | rfl <;> decide
  have hdoubled : c ∉ exchanged '\'' ['\'', '\''] t.toList := not_mem_exchanged (by simp [hquote]) h
  have hdouble : (Text.replaceAll "'" "''" t).toList = exchanged '\'' ['\'', '\''] t.toList :=
    toList_replaceAll rfl _ t
  have htext : (Const.string t).text.toList =
      '\'' :: exchanged '\'' ['\'', '\''] t.toList ++ ['\''] := by
    simp [Const.text, hdouble]
  simp [htext, hquote, hdoubled]

theorem not_mem_param (hc : IsRuling c) (n : Nat) : c ∉ ("$" ++ toString n).toList := by
  have hmarks : c ≠ '$' ∧ c.isDigit = false := by rcases hc with rfl | rfl <;> decide
  have hrepr : toString n = String.ofList (Nat.toDigits 10 n) := Nat.repr_eq_ofList_toDigits
  intro hmem
  have hcases : c = '$' ∨ c ∈ Nat.toDigits 10 n := by simpa [hrepr] using hmem
  refine hcases.elim hmarks.1 fun hdigit => ?_
  rw [Nat.isDigit_of_mem_toDigits (by decide) (by decide) hdigit] at hmarks
  cases hmarks.2

/-- What a text of the tree lacks is not written for it. -/
theorem Leaf.Lacks.not_mem_written (hc : IsRuling c) (s : Style) {l : Leaf} (h : l.Lacks c) :
    c ∉ (l.written s).toList := by
  have hwords : ∀ w ∈ ["true", "false", "NULL"], IsFlat w := by decide
  match l with
  | .text _ | .const (.number _) => exact h
  | .operator _ => exact not_mem_operatorText hc h
  | .function _ => exact not_mem_casedName hc _ h
  | .keyword _ => exact not_mem_upper_of_ruling hc h
  | .const (.string _) => exact not_mem_quoted hc h
  | .const (.boolean true) => exact (hwords "true" (by decide)).not_mem hc
  | .const (.boolean false) => exact (hwords "false" (by decide)).not_mem hc
  | .const .null => exact (hwords "NULL" (by decide)).not_mem hc
  | .param n => exact not_mem_param hc n

/-! ### An exchange of characters -/

/-- What becomes of a text when it is laid out `k` levels deeper, or with another unit of indentation:
a text comes in place of one character, and each line starts with `lead`. -/
structure Exchange (s s' : Style) (k : Nat) where
  char : Char
  text : List Char
  lead : List Char
  isRuling : IsRuling char
  /-- No sign comes to stand at the start of a text. -/
  starts : ∃ c r, text = c :: r ∧ c ≠ '-' ∧ c ≠ '+'
  lineBreak : exchanged char text ['\n'] = '\n' :: lead
  indent : ∀ d, lead ++ exchanged char text (s.indentBy d).toList = (s'.indentBy (d + k)).toList
  functionCase : s'.functionCase = s.functionCase
  joinIndented : s'.joinIndented = s.joinIndented
  onOwnLine : s'.onOwnLine = s.onOwnLine

theorem toList_indentBy_add (s : Style) (d k : Nat) :
    (s.indentBy (d + k)).toList = (s.indentBy k).toList ++ (s.indentBy d).toList := by
  unfold Style.indentBy
  induction k with
  | zero => rfl
  | succ k ih => rw [Nat.add_succ, Text.replicate, Text.replicate, String.toList_append, ih,
      String.toList_append, List.append_assoc]

variable {s s' : Style} {k d d' : Nat} (x : Exchange s s' k)

namespace Exchange

/-- Each line starts `k` levels deeper. -/
def deeper (s : Style) (k : Nat) : Exchange s s k where
  char := '\n'
  text := '\n' :: (s.indentBy k).toList
  lead := (s.indentBy k).toList
  isRuling := .inl rfl
  starts := ⟨_, _, rfl, by decide, by decide⟩
  lineBreak := List.append_nil _
  indent d := by
    have hunit : '\n' ∉ s.indent.text.toList := by cases s.indent <;> decide
    have hline : '\n' ∉ (s.indentBy d).toList := by
      unfold Style.indentBy
      induction d with
      | zero => exact List.not_mem_nil
      | succ d ih =>
        rw [Text.replicate, String.toList_append, List.mem_append]
        exact fun h => h.elim hunit ih
    rw [exchanged_of_not_mem hline, toList_indentBy_add]
  functionCase := rfl
  joinIndented := rfl
  onOwnLine := rfl

/-- Two blanks come in place of each tab. -/
def tabs (s : Style) : Exchange { s with indent := .tab } { s with indent := .twoSpaces } 0 where
  char := '\t'
  text := [' ', ' ']
  lead := []
  isRuling := .inr rfl
  starts := ⟨_, _, rfl, by decide, by decide⟩
  lineBreak := rfl
  indent d := by
    simp only [Style.indentBy, IndentUnit.text, List.nil_append, Nat.add_zero]
    induction d with
    | zero => rfl
    | succ d ih =>
      rw [Text.replicate, Text.replicate, String.toList_append, exchanged_append, ih,
        String.toList_append]
      rfl
  functionCase := rfl
  joinIndented := rfl
  onOwnLine := rfl

/-- The characters of a text after the exchange. -/
abbrev apply (cs : List Char) : List Char :=
  exchanged x.char x.text cs

theorem apply_lineBreak (cs : List Char) : x.apply ('\n' :: cs) = '\n' :: (x.lead ++ x.apply cs) := by
  rw [← List.singleton_append, apply, exchanged_append, x.lineBreak, List.cons_append]

/-- Where the depth stays nothing is due at the start of a line. -/
theorem lead_eq_nil (x : Exchange s s' 0) : x.lead = [] :=
  (List.append_eq_nil_iff.1 (x.indent 0)).1

/-- The exchange brings no sign to the start of a text and takes none from there. -/
theorem any_head?_apply (cs : List Char) :
    ((x.apply cs).head?.any fun c => c == '-' || c == '+') =
      cs.head?.any fun c => c == '-' || c == '+' := by
  have hsign (c : Char) (h : c ≠ '-' ∧ c ≠ '+') : (c == '-' || c == '+') = false := by simpa using h
  cases cs with
  | nil => rfl
  | cons c r =>
    by_cases hc : c = x.char
    · obtain ⟨a, as, htext, ha⟩ := x.starts
      have hruling : c ≠ '-' ∧ c ≠ '+' := by rcases hc ▸ x.isRuling with rfl | rfl <;> decide
      rw [hc, apply, exchanged_cons_self, htext]
      exact (hsign a ha).trans (hsign _ (hc ▸ hruling)).symm
    · rw [apply, exchanged_cons_of_ne hc]
      rfl

/-- No text of the tree among the pieces has the character that is exchanged. -/
def Spares (ps : List Piece) : Prop :=
  ∀ t ∈ leafTexts ps, x.char ∉ t.toList

/-- The second pieces are the first ones after the exchange. -/
def Turns (ps qs : List Piece) : Prop :=
  x.Spares ps → (Piece.textOf s' qs).toList = x.apply (Piece.textOf s ps).toList

/-- The same of pieces that start a line. -/
def TurnsLine (ps qs : List Piece) : Prop :=
  x.Spares ps → (Piece.textOf s' qs).toList = x.lead ++ x.apply (Piece.textOf s ps).toList

variable {x} {ps qs ps' qs' : List Piece}

theorem spares_append : x.Spares (ps ++ qs) ↔ x.Spares ps ∧ x.Spares qs := by
  simp only [Spares, leafTexts_append, List.forall_mem_append]

namespace Turns

theorem mark (m : String) (hm : IsFlat m) : x.Turns [.mark m] [.mark m] := by
  intro _
  simp [Piece.text, exchanged_of_not_mem (hm.not_mem x.isRuling)]

theorem leaf (t : String) : x.Turns [.leaf t] [.leaf t] := by
  intro hps
  simp [Piece.text, exchanged_of_not_mem (hps t List.mem_cons_self)]

theorem append (h : x.Turns ps qs) (h' : x.Turns ps' qs') : x.Turns (ps ++ ps') (qs ++ qs') := by
  intro hps
  obtain ⟨hps, hps'⟩ := spares_append.1 hps
  simp only [Piece.textOf_append, String.toList_append, exchanged_append, h hps, h' hps']

theorem startsWithSign_eq (h : x.Turns ps qs) (hps : x.Spares ps) :
    startsWithSign s' qs = startsWithSign s ps := by
  have hsign (r : Style) (ps : List Piece) : startsWithSign r ps =
      (Piece.textOf r ps).toList.head?.any fun c => c == '-' || c == '+' := by
    unfold startsWithSign
    cases (Piece.textOf r ps).toList with
    | nil => rfl
    | cons c r => split <;> simp_all
  rw [hsign, hsign, h hps, x.any_head?_apply]

theorem signs (h : x.Turns ps qs) :
    x.Turns ((if startsWithSign s ps then [.mark " "] else []) ++ ps)
      ((if startsWithSign s' qs then [.mark " "] else []) ++ qs) := by
  -- whether a blank is due can be told once the pieces are spared
  intro hps
  rw [h.startsWithSign_eq (spares_append.1 hps).2]
  revert hps
  split
  · exact (mark " " (by decide)).append h
  · exact h

end Turns

namespace TurnsLine

theorem indent (hd : d' = d + k) (h : x.Turns ps qs) :
    x.TurnsLine (.indent d :: ps) (.indent d' :: qs) := by
  intro hps
  have hindent : (s'.indentBy d').toList = x.lead ++ x.apply (s.indentBy d).toList :=
    hd ▸ (x.indent d).symm
  simp only [Piece.textOf_cons, Piece.text, String.toList_append, hindent, h hps, exchanged_append,
    List.append_assoc]

theorem append (h : x.TurnsLine ps qs) (h' : x.Turns ps' qs') :
    x.TurnsLine (ps ++ ps') (qs ++ qs') := by
  intro hps
  obtain ⟨hps, hps'⟩ := spares_append.1 hps
  simp only [Piece.textOf_append, String.toList_append, exchanged_append, h hps, h' hps',
    List.append_assoc]

theorem afterBreak (h : x.TurnsLine ps qs) : x.Turns (.lineBreak :: ps) (.lineBreak :: qs) := by
  intro hps
  have hbreak (r : Style) (ps : List Piece) :
      (Piece.textOf r (.lineBreak :: ps)).toList = '\n' :: (Piece.textOf r ps).toList := by
    simp [Piece.text]
  rw [hbreak, hbreak, apply_lineBreak, h hps]

end TurnsLine

/-- Layouts are related by an exchange. -/
def congruence (x : Exchange s s' k) : Congruence s s' where
  Rel := x.Turns
  Line _ _ := x.TurnsLine
  Depth d d' := d' = d + k
  Blank := x.lead = []
  nil _ := rfl
  mark := Turns.mark
  leaf := Turns.leaf
  function name := by
    rw [x.functionCase]
    exact Turns.leaf _
  append := Turns.append
  signs := Turns.signs
  on {_ _ d d'} h hd := by
    have hnext : d' + 1 = d + 1 + k := by omega
    have hlead : x.TurnsLine [.indent (d + 1), .mark "ON "] [.indent (d' + 1), .mark "ON "] :=
      .indent hnext (.mark "ON " (by decide))
    rw [x.onOwnLine]
    split
    · exact hlead.afterBreak.append (h hnext)
    · exact (Turns.mark " ON " (by decide)).append (h hd)
  empty hlead _ := by simp [hlead]
  indent := TurnsLine.indent
  continued := TurnsLine.append
  afterBreak := TurnsLine.afterBreak
  succ hd := by omega
  join hd := by
    rw [x.joinIndented]
    split
    · omega
    · exact hd

/-- Where the depth stays whole statements are related. -/
theorem atLeft (x : Exchange s s' 0) : x.congruence.AtLeft where
  blank := x.lead_eq_nil
  depth := rfl
  start h hps := by rw [h hps, x.lead_eq_nil, List.nil_append]

end Exchange

end SqlLayout.Layout
