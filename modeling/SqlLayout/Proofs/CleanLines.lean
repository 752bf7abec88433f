import SqlLayout.Proofs.Exchange
import SqlLayout.Proofs.Queries
import SqlLayout.Proofs.Quoting

/-!
The lines of a layout. Each of them ends with a character that shows, so that none is empty and none has
blanks at its end, if the texts of the tree end so and no list is empty that has to fill a line.
-/

namespace SqlLayout.Text

/-! ### Lines of a text -/

/-- Whether a character shows at the end of a line. -/
def isShown (c : Char) : Bool :=
  c != ' ' && c != '\t' && c != '\n'

/-- Whether the line that a text ends with has come to a character that shows, where `shown` tells this
of the line that it starts with. No line may end otherwise. -/
def shownAfter (shown : Bool) : List Char → Option Bool
  | [] => some shown
  | c :: r => if c = '\n' then (if shown then shownAfter false r else none) else shownAfter (isShown c) r

theorem shownAfter_append (shown : Bool) (cs ds : List Char) :
    shownAfter shown (cs ++ ds) = (shownAfter shown cs).bind (shownAfter · ds) := by
  induction cs generalizing shown with
  | nil => rfl
  | cons c r ih =>
    simp only [List.cons_append, shownAfter, ih]
    split
    · split <;> rfl
    · rfl

/-- Within a line the last character decides. -/
theorem shownAfter_line (shown : Bool) {cs : List Char} (h : '\n' ∉ cs) :
    shownAfter shown cs = some ((cs.getLast?.map isShown).getD shown) := by
  induction cs generalizing shown with
  | nil => rfl
  | cons c r ih =>
    obtain ⟨hc, hr⟩ := not_or.1 (List.mem_cons.not.1 h)
    rw [shownAfter, if_neg (Ne.symm hc), ih _ hr]
    cases r with
    | nil => rfl
    | cons d r => rw [List.getLast?_cons_cons, List.getLast?_cons]; rfl

/-- The line that goes on when the text starts ends with a character that shows, and so does every other
one. -/
theorem shown_of_shownAfter {shown : Bool} {cs line : List Char} {lines : List (List Char)}
    (h : shownAfter shown cs = some true) (hlines : cs.splitOn '\n' = line :: lines) :
    (line.getLast?.map isShown).getD shown = true ∧ ∀ l ∈ lines, l.getLast?.any isShown = true := by
  induction cs generalizing shown line lines with
  | nil =>
    rw [List.splitOn_nil] at hlines
    cases hlines
    exact ⟨Option.some.inj h, nofun⟩
  | cons c r ih =>
    obtain ⟨first, rest, hrest⟩ := List.exists_cons_of_ne_nil (List.splitOn_ne_nil '\n' r)
    rw [List.splitOn_cons_eq_if_modifyHead, hrest] at hlines
    rw [shownAfter] at h
    by_cases hc : c = '\n'
    · rw [if_pos hc] at h
      rw [if_pos (beq_iff_eq.2 hc)] at hlines
      cases hlines
      split at h
      · rename_i hshown
        obtain ⟨hfirst, hothers⟩ := ih h hrest
        have hlast : first.getLast?.any isShown = true := by
          cases hlast : first.getLast? with
          | none => rw [hlast] at hfirst; cases hfirst
          | some d => rw [hlast] at hfirst; exact hfirst
        exact ⟨hshown, List.forall_mem_cons.2 ⟨hlast, hothers⟩⟩
      · cases h
    · rw [if_neg hc] at h
      rw [if_neg (by simpa using hc), List.modifyHead_cons] at hlines
      cases hlines
      obtain ⟨hfirst, hothers⟩ := ih h hrest
      refine ⟨?_, hothers⟩
      rw [List.getLast?_cons]
      cases hlast : first.getLast? with
      | none => rw [hlast] at hfirst; exact hfirst
      | some d => rw [hlast] at hfirst; exact hfirst

/-- No line of a text is empty, and none ends with a blank or a tab. -/
def HasCleanLines (t : String) : Prop :=
  ∀ line ∈ t.toList.splitOn '\n', line ≠ [] ∧ ∀ c ∈ line.getLast?, c ≠ ' ' ∧ c ≠ '\t'

theorem hasCleanLines_of_shownAfter {t : String} (h : shownAfter false t.toList = some true) :
    HasCleanLines t := by
  intro line hline
  have hshown : line.getLast?.any isShown = true := by
    obtain ⟨first, rest, hlines⟩ := List.exists_cons_of_ne_nil (List.splitOn_ne_nil '\n' t.toList)
    obtain ⟨hfirst, hrest⟩ := shown_of_shownAfter h hlines
    rw [hlines] at hline
    obtain rfl | hline := List.mem_cons.1 hline
    · cases hlast : line.getLast? with
      | none => rw [hlast] at hfirst; cases hfirst
      | some d => rw [hlast] at hfirst; exact hfirst
    · exact hrest line hline
  obtain ⟨c, hc, hisShown⟩ := (Option.any_eq_true _ _).1 hshown
  constructor
  · rintro rfl
    cases hc
  · intro d hd
    obtain rfl : c = d := Option.some.inj (hc.symm.trans hd)
    simp only [isShown, Bool.and_eq_true, bne_iff_ne] at hisShown
    exact hisShown.1

/-- Such a text starts and ends within its first and its last line. -/
theorem HasCleanLines.ends {t : String} (h : HasCleanLines t) :
    t.toList.head? ≠ some '\n' ∧ t.toList.getLast? ≠ some '\n' := by
  constructor
  · intro hhead
    obtain ⟨r, hr⟩ := List.head?_eq_some_iff.1 hhead
    have hfirst : [] ∈ t.toList.splitOn '\n' := by
      rw [hr, List.splitOn_cons_eq_if_modifyHead]
      simp
    exact (h [] hfirst).1 rfl
  · intro hlast
    obtain ⟨r, hr⟩ := List.getLast?_eq_some_iff.1 hlast
    have hempty : [] ∈ t.toList.splitOn '\n' := by
      rw [hr, List.splitOn, List.splitOnP_append_cons r [] rfl]
      simp
    exact (h [] hempty).1 rfl

end SqlLayout.Text

namespace SqlLayout.Layout

open Piece (newline sepBy commas leaves)
open Text (isShown shownAfter HasCleanLines)

/-! ### Texts that show at their end -/

/-- A text within a line that ends with a character that shows. -/
def EndsShown (t : String) : Prop :=
  '\n' ∉ t.toList ∧ t.toList.getLast?.any isShown = true

instance : DecidablePred EndsShown :=
  fun _ => inferInstanceAs (Decidable (_ ∧ _))

/-- A text of the tree that has no line break and ends with a character that shows. Strings may end as
they like, for a quote comes after them. -/
def Leaf.EndsShown : Leaf → Prop
  | .text t | .operator t | .function t | .keyword t | .const (.number t) => Layout.EndsShown t
  | .const (.string t) => '\n' ∉ t.toList
  | .const (.boolean _) | .const .null | .param _ => True

instance : DecidablePred Leaf.EndsShown
  | .text t | .operator t | .function t | .keyword t | .const (.number t) =>
    inferInstanceAs (Decidable (Layout.EndsShown t))
  | .const (.string t) => inferInstanceAs (Decidable ('\n' ∉ t.toList))
  | .const (.boolean _) | .const .null | .param _ => .isTrue trivial

theorem Leaf.EndsShown.lacks {l : Leaf} (h : l.EndsShown) : l.Lacks '\n' := by
  match l with
  | .text _ | .operator _ | .function _ | .keyword _ | .const (.number _) => exact h.1
  | .const (.string _) => exact h
  | .const (.boolean _) | .const .null | .param _ => trivial

/-- The letters that come for one that shows do so as well. -/
theorem isShown_upperLetter {c x : Char} (h : isShown c = true) (hx : x ∈ Text.upperLetter c) :
    isShown x = true := by
  have hcapital : ∀ y ∈ [' ', '\t', '\n'], ¬ Text.IsCapital y ∧ y ≠ '\x00' := by
    simp [Text.IsCapital]
  have hsame {y : Char} (hy : y ∈ [' ', '\t', '\n']) (heq : x = y) : c = y :=
    Text.eq_of_mem_upperLetter (hcapital y hy).1 (hcapital y hy).2 (heq ▸ hx)
  simp only [isShown, Bool.and_eq_true, bne_iff_ne] at h ⊢
  exact ⟨⟨fun hc => h.1.1 (hsame (by decide) hc), fun hc => h.1.2 (hsame (by decide) hc)⟩,
    fun hc => h.2 (hsame (by decide) hc)⟩

theorem last_upper {word : String} (h : word.toList.getLast?.any isShown = true) :
    (Text.upper word).toList.getLast?.any isShown = true := by
  obtain ⟨c, hc, hshown⟩ := (Option.any_eq_true _ _).1 h
  obtain ⟨r, hr⟩ := List.getLast?_eq_some_iff.1 hc
  have hne := Text.upperLetter_ne_nil c
  rw [Text.upper_toList, hr, List.flatMap_append, List.flatMap_singleton,
    List.getLast?_append_of_ne_nil _ hne, List.getLast?_eq_getLast_of_ne_nil hne]
  exact isShown_upperLetter hshown (List.getLast_mem hne)

theorem last_casedName (x : NameCase) {name : String} (h : name.toList.getLast?.any isShown = true) :
    (casedName x name).toList.getLast?.any isShown = true := by
  have hknown : ∀ n ∈ knownFunctions, n.toList.getLast?.any isShown = true ∧
      (Text.asciiUpper n).toList.getLast?.any isShown = true := by decide
  unfold casedName knownName?
  cases hfind : knownFunctions.find? (Text.eqIgnoreCase · name) with
  | none => exact h
  | some n =>
    have hn := hknown n (List.mem_of_find?_eq_some hfind)
    cases x with
    | lower => exact hn.1
    | upper => exact hn.2

theorem last_operatorText {op : String} (h : op.toList.getLast?.any isShown = true) :
    (operatorText op).toList.getLast?.any isShown = true := by
  unfold operatorText
  split
  · decide
  · exact h

theorem isShown_of_isDigit {c : Char} (h : c.isDigit = true) : isShown c = true := by
  have hhidden : ∀ x ∈ [' ', '\t', '\n'], x.isDigit = false := by decide
  have hne {x : Char} (hx : x ∈ [' ', '\t', '\n']) : c ≠ x := fun heq => by
    rw [heq, hhidden x hx] at h
    cases h
  simp [isShown, hne]

theorem last_param (n : Nat) : ("$" ++ toString n).toList.getLast?.any isShown = true := by
  have hrepr : toString n = String.ofList (Nat.toDigits 10 n) := Nat.repr_eq_ofList_toDigits
  have hne : Nat.toDigits 10 n ≠ [] := Nat.toDigits_ne_nil
  have hdigit := Nat.isDigit_of_mem_toDigits (by decide) (by decide) (List.getLast_mem hne)
  have htext : ("$" ++ toString n).toList = '$' :: Nat.toDigits 10 n := by simp [hrepr]
  rw [htext, List.getLast?_cons, List.getLast?_eq_getLast_of_ne_nil hne]
  exact isShown_of_isDigit hdigit

theorem last_string (t : String) : (Const.string t).text.toList.getLast?.any isShown = true := by
  have hlast : (Const.string t).text.toList.getLast? = some '\'' := by
    rw [Const.text, String.toList_append]
    exact List.getLast?_append_of_ne_nil _ (by decide)
  rw [hlast]
  rfl

/-- What is written for a text of the tree ends as it does. -/
theorem Leaf.EndsShown.written {l : Leaf} (h : l.EndsShown) (s : Style) :
    Layout.EndsShown (l.written s) := by
  refine ⟨h.lacks.not_mem_written (.inl rfl) s, ?_⟩
  match l with
  | .text _ | .const (.number _) => exact h.2
  | .operator _ => exact last_operatorText h.2
  | .function _ => exact last_casedName _ h.2
  | .keyword _ => exact last_upper h.2
  | .const (.string t) => exact last_string t
  | .const (.boolean true) => exact (by decide : Layout.EndsShown "true").2
  | .const (.boolean false) => exact (by decide : Layout.EndsShown "false").2
  | .const .null => exact (by decide : Layout.EndsShown "NULL").2
  | .param n => exact last_param n

/-! ### Pieces with clean lines -/

/-- Pieces that leave no line empty or with a blank at its end, if their texts end as they should. With
`a` the line before them has come to a character that shows, and with `b` the line after them has. -/
def Tidy (s : Style) (a b : Bool) (ps : List Piece) : Prop :=
  (∀ t ∈ leafTexts ps, EndsShown t) → ∀ shown, (a = true → shown = true) →
    ∃ shown', (b = true → shown' = true) ∧ shownAfter shown (Piece.textOf s ps).toList = some shown'

variable {s : Style} {a b c : Bool} {d : Nat} {m : String} {ps qs : List Piece} {pss : List (List Piece)}

theorem indentBy_line (s : Style) (d : Nat) : '\n' ∉ (s.indentBy d).toList := by
  have hunit : '\n' ∉ s.indent.text.toList := by
    cases s.indent <;> decide
  unfold Style.indentBy
  induction d with
  | zero => simp [Text.replicate]
  | succ d ih => simp [Text.replicate, hunit, ih]

namespace Tidy

theorem nil : Tidy s a a [] :=
  fun _ shown ha => ⟨shown, ha, rfl⟩

/-- That a character shows may be left unsaid. -/
theorem loose : Tidy s a false [] :=
  fun _ shown _ => ⟨shown, nofun, rfl⟩

theorem append (h : Tidy s a b ps) (h' : Tidy s b c qs) : Tidy s a c (ps ++ qs) := by
  intro htexts shown ha
  rw [leafTexts_append, List.forall_mem_append] at htexts
  obtain ⟨middle, hb, hps⟩ := h htexts.1 shown ha
  obtain ⟨last, hc, hqs⟩ := h' htexts.2 middle hb
  refine ⟨last, hc, ?_⟩
  rw [Piece.textOf_append, String.toList_append, Text.shownAfter_append, hps]
  exact hqs

theorem tighten (h : Tidy s false b ps) : Tidy s a b ps :=
  fun htexts shown _ => h htexts shown nofun

theorem loosen (h : Tidy s a b ps) : Tidy s a false ps := by
  simpa using h.append loose

/-- A piece within a line, where `b` is said of it only if a character shows at its end. -/
theorem single (p : Piece) (hline : (∀ t ∈ leafTexts [p], EndsShown t) → '\n' ∉ (p.text s).toList)
    (hlast : (∀ t ∈ leafTexts [p], EndsShown t) → b = true →
      (p.text s).toList.getLast?.any isShown = true) : Tidy s a b [p] := by
  intro htexts shown _
  refine ⟨((p.text s).toList.getLast?.map isShown).getD shown, fun hb => ?_, ?_⟩
  · obtain ⟨c, hc, hshown⟩ := (Option.any_eq_true _ _).1 (hlast htexts hb)
    simp [hc, hshown]
  · rw [Piece.textOf_cons, Piece.textOf_nil, String.append_empty]
    exact Text.shownAfter_line shown (hline htexts)

theorem leaf (t : String) (h : Tidy s true b ps) : Tidy s a b (.leaf t :: ps) :=
  append (single (.leaf t) (fun htexts => (htexts t (by simp)).1) fun htexts _ => (htexts t (by simp)).2) h

/-- Fixed text that ends with a character that shows. -/
theorem mark (hm : EndsShown m) (h : Tidy s true b ps) : Tidy s a b (.mark m :: ps) :=
  append (single (.mark m) (fun _ => hm.1) fun _ _ => hm.2) h

/-- Fixed text that something comes after. -/
theorem lead (hm : '\n' ∉ m.toList) (h : Tidy s false b ps) : Tidy s a b (.mark m :: ps) := by
  have hmark : Tidy s a false [.mark m] := single (.mark m) (fun _ => hm) nofun
  exact hmark.append h

theorem empty : Tidy s a a [.mark ""] :=
  fun _ shown ha => ⟨shown, ha, rfl⟩

theorem lineBreak (h : Tidy s false b ps) : Tidy s true b (.lineBreak :: ps) := by
  have hbreak : Tidy s true false [.lineBreak] := by
    intro _ shown ha
    refine ⟨false, nofun, ?_⟩
    rw [ha rfl]
    simp [Piece.text, shownAfter]
  exact hbreak.append h

theorem indent (d : Nat) (h : Tidy s false b ps) : Tidy s a b (.indent d :: ps) := by
  have hindent : Tidy s a false [.indent d] := single (.indent d) (fun _ => indentBy_line s d) nofun
  exact hindent.append h

theorem newline (d : Nat) (h : Tidy s false b ps) : Tidy s true b (Piece.newline d ++ ps) :=
  .lineBreak (.indent d h)

/-- A fixed text at the start of a line that goes on after it. -/
theorem clause (d : Nat) (hm : '\n' ∉ m.toList) : Tidy s true false (Piece.newline d ++ [Piece.mark m]) :=
  newline d (lead hm nil)

/-- Pieces that are left out under a condition. -/
theorem ite {p : Prop} [Decidable p] (h : ¬ p → Tidy s false true ps) :
    Tidy s a a (if p then [] else ps) := by
  split
  · exact nil
  · rename_i hp
    cases a with
    | true => exact (h hp).tighten
    | false => exact (h hp).loosen

theorem sepBy {separator : List Piece} (hseparator : Tidy s true false separator)
    (h : ∀ ps ∈ pss, Tidy s false true ps) (hne : pss ≠ []) :
    Tidy s false true (Piece.sepBy separator pss) := by
  fun_induction Piece.sepBy separator pss with
  | case1 => exact absurd rfl hne
  | case2 ps => exact h ps List.mem_cons_self
  | case3 ps qs r ih =>
    have hrest := ih (fun x hx => h x (List.mem_cons_of_mem ps hx)) (List.cons_ne_nil qs r)
    exact ((h ps List.mem_cons_self).append hseparator).append hrest

/-- Groups with a separator between neighbours, or nothing. -/
theorem list {separator : List Piece} (hseparator : Tidy s true false separator)
    (h : ∀ ps ∈ pss, Tidy s false true ps) : Tidy s a false (Piece.sepBy separator pss) := by
  by_cases hne : pss = []
  · rw [hne]
    exact loose
  · exact (sepBy hseparator h hne).loosen.tighten

/-- Groups with a comma and a blank between neighbours. -/
theorem commas (h : ∀ ps ∈ pss, Tidy s false true ps) (hne : pss ≠ []) :
    Tidy s false true (Piece.commas pss) :=
  sepBy (lead (by decide) nil) h hne

theorem leaves {separator : String} (h : '\n' ∉ separator.toList) {ts : List String} (hne : ts ≠ []) :
    Tidy s false true (Piece.leaves separator ts) := by
  refine sepBy (lead h nil) ?_ (by simpa using hne)
  simp only [List.mem_map]
  rintro _ ⟨t, -, rfl⟩
  exact leaf t nil

/-- Groups on lines of their own. -/
theorem lines (h : ∀ ps ∈ pss, Tidy s false true ps) :
    Tidy s true true (Piece.sepBy [.mark ","] (pss.map (Piece.newline d ++ ·))) := by
  induction pss with
  | nil => exact nil
  | cons ps r ih =>
    obtain ⟨hps, hr⟩ := List.forall_mem_cons.1 h
    have hline : Tidy s true true (Piece.newline d ++ ps) := newline d hps
    cases r with
    | nil => exact hline
    | cons qs r => exact (hline.append (mark (by decide) nil)).append (ih hr)

end Tidy

/-! ### Parts without expressions -/

theorem word_tidy {w : String} (hw : '\n' ∉ w.toList) (present : Bool) :
    Tidy s false false (if present then [.mark w] else []) := by
  cases present with
  | false => exact .nil
  | true => exact .lead hw .nil

theorem notMark_tidy (negated : Bool) : Tidy s false false (notMark negated) :=
  word_tidy (by decide) negated

theorem columnPieces_tidy (fields : List String) (wildcard : Bool) :
    Tidy s false true (columnPieces fields wildcard) := by
  cases fields with
  | nil => exact .mark (by decide) .nil
  | cons w ws =>
    refine (Tidy.leaves (by decide) (List.cons_ne_nil w ws)).append ?_
    cases wildcard with
    | false => exact .nil
    | true => exact .mark (by decide) .nil

theorem functionName_tidy (name : List String) : Tidy s false false (functionName s name) := by
  unfold functionName
  split
  · exact .nil
  · exact (Tidy.leaves (by decide) (by simp)).loosen

theorem aliasPieces_tidy (name : Option String) : Tidy s true true (aliasPieces name) := by
  cases name with
  | none => exact .nil
  | some t => exact .lead (by decide) (.leaf t .nil)

theorem targetName_tidy (name : Option String) :
    Tidy s true true
      (match name with
        | some n => [.mark " AS ", .leaf n]
        | none => []) := by
  cases name with
  | none => exact .nil
  | some n => exact .lead (by decide) (.leaf n .nil)

theorem tableName_tidy (t : TableName) : Tidy s false true t.pieces := by
  have hname : Tidy s false true ([Piece.leaf t.name] ++ aliasPieces t.aliasName) :=
    .leaf t.name (aliasPieces_tidy t.aliasName)
  unfold TableName.pieces
  cases t.schema with
  | none => exact hname
  | some schema => exact .leaf schema (.mark (by decide) hname.tighten)

theorem waiting_tidy (waiting : Option Waiting) :
    Tidy s true true
      (match waiting with
        | some w => [.mark (" " ++ w.text)]
        | none => []) := by
  cases waiting with
  | none => exact .nil
  | some w => exact .mark (by cases w <;> decide) .nil

theorem locking_tidy (l : Locking) : Tidy s false true l.pieces := by
  obtain ⟨strength, of, waiting⟩ := l
  have hstrength : EndsShown strength.text := by cases strength <;> decide
  cases of with
  | none => exact .mark hstrength (waiting_tidy waiting)
  | some t => exact .mark hstrength (.lead (by decide) (.leaf t (waiting_tidy waiting)))

theorem lockings_tidy (ls : List Locking) (d : Nat) :
    Tidy s true true (ls.map fun l => newline d ++ l.pieces).flatten := by
  induction ls with
  | nil => exact .nil
  | cons l r ih => exact (Tidy.newline d (locking_tidy l)).append ih

theorem brackets_tidy (n : Nat) : Tidy s true true (List.replicate n (.mark "[]")) := by
  induction n with
  | zero => exact .nil
  | succ n ih => exact .mark (by decide) ih

theorem closing_tidy (q : Quantifier) : Tidy s true true [.mark q.closing] := by
  cases q with
  | none => exact .empty
  | any | all => exact .mark (by decide) .nil

theorem direction_tidy (y : Direction) : Tidy s true true [.mark y.text] := by
  cases y with
  | default => exact .empty
  | ascending | descending => exact .mark (by decide) .nil

theorem nulls_tidy (y : Option Nulls) :
    Tidy s true true
      (match y with
        | some n => [.mark n.text]
        | none => []) := by
  cases y with
  | none => exact .nil
  | some n => exact .mark (by cases n <;> decide) .nil

theorem names_tidy (cs : List String) : Tidy s true false (leaves ", " cs) := by
  cases cs with
  | nil => exact .loose
  | cons c cs => exact (Tidy.leaves (by decide) (List.cons_ne_nil c cs)).loosen.tighten

theorem conflictTarget_tidy (target : Option ConflictTarget) :
    Tidy s true true
      (match target with
        | some t => t.pieces
        | none => []) := by
  match target with
  | none => exact .nil
  | some (.columns cs) =>
    exact ((Tidy.mark (by decide) .nil).append (names_tidy cs)).append (.mark (by decide) .nil)
  | some (.onConstraint n) => exact .lead (by decide) (.leaf n .nil)

/-- The columns of an insertion, or a line break where there is none. -/
theorem insertColumns_tidy (cs : List String) :
    Tidy s true false
      (if cs.isEmpty then newline 0
        else [Piece.mark "("] ++ sepBy [Piece.mark ","] (cs.map fun c => newline 1 ++ [Piece.leaf c]) ++
          newline 0 ++ [Piece.mark ") "]) := by
  split
  · exact .newline 0 .nil
  · have hcolumns : Tidy s true true
        (sepBy [.mark ","] ((cs.map fun c => [Piece.leaf c]).map (newline 1 ++ ·))) := by
      refine .lines ?_
      simp only [List.mem_map]
      rintro _ ⟨c, -, rfl⟩
      exact .leaf c .nil
    rw [List.map_map] at hcolumns
    exact (((Tidy.mark (by decide) .nil).append hcolumns).append (.newline 0 .nil)).append
      (.lead (by decide) .nil)

/-! ### Expressions and queries -/

/-- A list that has to fill a line is not empty: the operands of a condition and the targets of a
select. -/
def Node.IsFilled : Node → Prop
  | .expr (.logic _ args) => args ≠ []
  | .select y => y.targets ≠ []
  | _ => True

/-- Values have rows. -/
def Body.HasRows : Body → Prop
  | .values rows => rows ≠ []
  | .setOp _ _ l r => l.HasRows ∧ r.HasRows
  | .select _ | .query _ => True

theorem Body.isBlank_of_isFilled {b : Body} (h : ∀ n ∈ b.nodes, n.IsFilled) : b.isBlank = false := by
  cases b with
  | select x =>
    obtain ⟨distinct, targets, source, condition, groupBy, having⟩ := x
    have htargets : targets ≠ [] := h _ List.mem_cons_self
    simpa [Body.isBlank] using htargets
  | setOp | values | query => rfl

/-- Named queries are there where they are announced, and so are the rows of values. -/
def Query.IsFilled (q : Query) : Prop :=
  (∀ w ∈ q.withClause, w.ctes ≠ []) ∧ q.body.HasRows

/-- Pieces with clean lines, if the nodes and the queries that they are made from are filled. -/
def Neat (s : Style) (a b : Bool) (ns : List Node) (qs : List Query) (ps : List Piece) : Prop :=
  (∀ n ∈ ns, n.IsFilled) → (∀ q ∈ qs, q.IsFilled) → Tidy s a b ps

/-- Groups of pieces, each of which stands within a line. -/
def NeatIn (s : Style) (ns : List Node) (qs : List Query) (pss : List (List Piece)) : Prop :=
  (∀ n ∈ ns, n.IsFilled) → (∀ q ∈ qs, q.IsFilled) → ∀ ps ∈ pss, Tidy s false true ps

section

variable {ns ns' : List Node} {qs qs' : List Query} {ps' ts : List Piece} {pss' : List (List Piece)}

namespace Neat

theorem of (h : Tidy s a b ps) : Neat s a b ns qs ps :=
  fun _ _ => h

theorem node (n : Node) (h : n.IsFilled → Neat s a b ns qs ps) : Neat s a b (n :: ns) qs ps :=
  fun hns => h (List.forall_mem_cons.1 hns).1 (List.forall_mem_cons.1 hns).2

theorem append (h : Neat s a b ns qs ps) (h' : Neat s b c ns' qs' ps') :
    Neat s a c (ns ++ ns') (qs ++ qs') (ps ++ ps') := by
  intro hns hqs
  rw [List.forall_mem_append] at hns hqs
  exact (h hns.1 hqs.1).append (h' hns.2 hqs.2)

theorem after (h : Neat s a b ns qs ps) (hts : Tidy s b c ts) : Neat s a c ns qs (ps ++ ts) :=
  fun hns hqs => (h hns hqs).append hts

theorem before (hts : Tidy s a b ts) (h : Neat s b c ns qs ps) : Neat s a c ns qs (ts ++ ps) :=
  fun hns hqs => hts.append (h hns hqs)

theorem tighten (h : Neat s false b ns qs ps) : Neat s a b ns qs ps :=
  fun hns hqs => (h hns hqs).tighten

theorem loosen (h : Neat s a b ns qs ps) : Neat s a false ns qs ps :=
  fun hns hqs => (h hns hqs).loosen

end Neat

namespace NeatIn

theorem nil : NeatIn s ns qs [] :=
  fun _ _ => nofun

theorem cons (h : Neat s false true ns qs ps) (h' : NeatIn s ns' qs' pss) :
    NeatIn s (ns ++ ns') (qs ++ qs') (ps :: pss) := by
  intro hns hqs
  rw [List.forall_mem_append] at hns hqs
  exact List.forall_mem_cons.2 ⟨h hns.1 hqs.1, h' hns.2 hqs.2⟩

theorem append (h : NeatIn s ns qs pss) (h' : NeatIn s ns' qs' pss') :
    NeatIn s (ns ++ ns') (qs ++ qs') (pss ++ pss') := by
  intro hns hqs
  rw [List.forall_mem_append] at hns hqs
  exact List.forall_mem_append.2 ⟨h hns.1 hqs.1, h' hns.2 hqs.2⟩

theorem list (h : NeatIn s ns qs pss) {separator : List Piece} (hseparator : Tidy s true false separator) :
    Neat s a false ns qs (sepBy separator pss) :=
  fun hns hqs => .list hseparator (h hns hqs)

theorem lines (h : NeatIn s ns qs pss) (d : Nat) :
    Neat s true true ns qs (sepBy [.mark ","] (pss.map (newline d ++ ·))) :=
  fun hns hqs => .lines (h hns hqs)

/-- A clause that is left out when it has no item. -/
theorem clause (h : NeatIn s ns qs pss) {lead separator : List Piece} (hlead : Tidy s true false lead)
    (hseparator : Tidy s true false separator) :
    Neat s true true ns qs (if pss.isEmpty then [] else lead ++ sepBy separator pss) := by
  intro hns hqs
  split
  · exact .nil
  · rename_i hne
    exact hlead.append (.sepBy hseparator (h hns hqs) (mt List.isEmpty_iff.2 hne))

theorem sortClause (h : NeatIn s ns qs pss) {lead closing : String} (hlead : '\n' ∉ lead.toList)
    (hclosing : Tidy s true true [.mark closing]) :
    Neat s a a ns qs (sortClause lead [.mark ", "] pss closing) :=
  fun hns hqs => .ite fun hne =>
    (Tidy.lead hlead (.commas (h hns hqs) (mt List.isEmpty_iff.2 hne))).append hclosing

/-- Groups without nodes after others. -/
theorem add (h : NeatIn s ns qs pss) (hpss' : ∀ ps ∈ pss', Tidy s false true ps) :
    NeatIn s ns qs (pss ++ pss') :=
  fun hns hqs => List.forall_mem_append.2 ⟨h hns hqs, hpss'⟩

/-- A part of a list that is left out when it has no item. -/
theorem part (h : NeatIn s ns qs pss) {lead : String} (hlead : '\n' ∉ lead.toList) :
    NeatIn s ns qs (if pss.isEmpty then [] else [[Piece.mark lead] ++ commas pss]) := by
  intro hns hqs
  split
  · exact nofun
  · rename_i hne
    exact List.forall_mem_singleton.2
      (.lead hlead (.commas (h hns hqs) (mt List.isEmpty_iff.2 hne)))

end NeatIn

end

/-- A chain of conditions, which stands in parentheses where it is an operand. -/
theorem group_neat {ns : List Node} {qs : List Query} {c : Connective} {args : List Expr}
    (isOperand : Bool) (d : Nat) (h : ∀ d, Neat s false true ns qs (chainPieces s d c args)) :
    Neat s false true ns qs
      (if isOperand then
        [Piece.mark "(", .lineBreak, .indent (d + 1)] ++ chainPieces s (d + 1) c args ++ newline d ++
          [Piece.mark ")"]
      else chainPieces s d c args) := by
  cases isOperand with
  | false => exact h d
  | true =>
    have hopen : Tidy s false false [.mark "(", .lineBreak, .indent (d + 1)] :=
      .mark (by decide) (.lineBreak (.indent (d + 1) .nil))
    exact ((Neat.before hopen (h (d + 1))).after (.newline d .nil)).after (.mark (by decide) .nil)

theorem comma_tidy : Tidy s true false [.mark ", "] :=
  .lead (by decide) .nil

/-- A blank at the end of a part of a line. -/
theorem blank_tidy : Tidy s true false [.mark " "] :=
  .lead (by decide) .nil

/-- A parenthesis at the end of a part of a line. -/
theorem closed_tidy : Tidy s a true [.mark ")"] :=
  .mark (by decide) .nil

mutual

theorem expr_neat : (e : Expr) → (d : Nat) → (isOperand : Bool) →
    Neat s false true e.nodes e.queries (e.pieces s d isOperand)
  | .column fields wildcard, _, _ => .of (columnPieces_tidy fields wildcard)
  | .keyword w, _, _ => .of (.leaf (Text.upper w) .nil)
  | .const c, _, _ => .of (.leaf c.text .nil)
  | .param n, _, _ => .of (.leaf ("$" ++ toString n) .nil)
  | .call c, d, _ => call_neat c d
  | .operation q op l r escape, d, _ => .node _ fun _ => by
    have hopening : '\n' ∉ q.opening.toList := by cases q <;> decide
    have hop : Tidy s true false [.mark " ", .leaf (operatorText op), .mark q.opening] :=
      .lead (by decide) (.leaf _ (.lead hopening .nil))
    have hoperands := ((expr_neat l d false).after hop).append (expr_neat r d false)
    exact (hoperands.after (closing_tidy q)).append (option_neat escape d (.lead (by decide) .nil))
  | .logic .not args, d, _ => .node _ fun hargs => .before (.lead (by decide) .nil) (first_neat args d hargs)
  | .logic .and args, d, isOperand => .node _ fun hargs =>
    group_neat isOperand d fun d => chain_neat .and args d hargs
  | .logic .or args, d, isOperand => .node _ fun hargs =>
    group_neat isOperand d fun d => chain_neat .or args d hargs
  | .nullTest e t, d, _ => .node _ fun _ =>
    (expr_neat e d false).after (.mark (by cases t <;> decide) .nil)
  | .truthTest e t, d, _ => .node _ fun _ =>
    (expr_neat e d false).after (.mark (by cases t <;> decide) .nil)
  | .cast e typeName bounds, d, _ => .node _ fun _ =>
    ((expr_neat e d false).after (.mark (by decide) (.leaf typeName .nil))).after (brackets_tidy bounds)
  | .caseOf arg whens default, d, _ => .node _ fun _ => by
    have hcase : Tidy s false true [.mark "CASE"] := .mark (by decide) .nil
    have hend : Tidy s true true [.mark " END"] := .mark (by decide) .nil
    have hwhens := ((option_neat arg d blank_tidy).before hcase).append (when_neat whens d)
    exact (hwhens.append (option_neat default d (.lead (by decide) .nil))).after hend
  | .coalesce args, d, _ => .node _ fun _ => by
    have hopen : Tidy s false true [.mark "COALESCE("] := .mark (by decide) .nil
    exact (((exprs_neat args d).list comma_tidy).before hopen).after closed_tidy
  | .link kind test op negated q, d, _ => .node _ fun _ => by
    have hkind : EndsShown kind.opening := by cases kind <;> decide
    have hopen : Tidy s false false [.mark kind.opening, .lineBreak] := .mark hkind (.lineBreak .nil)
    have htest := ((test_neat op test d).after (notMark_tidy negated)).after hopen
    exact ((htest.append (query_neat q (d + 1))).after (.newline d .nil)).after closed_tidy
  | .inList e list negated, d, _ => .node _ fun _ => by
    have hopen : Tidy s false true [.mark "IN ("] := .mark (by decide) .nil
    have htest := (((expr_neat e d false).after blank_tidy).after (notMark_tidy negated)).after hopen
    exact (htest.append ((exprs_neat list d).list comma_tidy)).after closed_tidy
  | .between e low high negated, d, _ => .node _ fun _ => by
    have hbetween : Tidy s false false [.mark "BETWEEN "] := .lead (by decide) .nil
    have hand : Tidy s true false [.mark " AND "] := .lead (by decide) .nil
    have htest := (((expr_neat e d false).after blank_tidy).after (notMark_tidy negated)).after hbetween
    exact ((htest.append (expr_neat low d false)).after hand).append (expr_neat high d false)
  | .array es, d, _ => .node _ fun _ => by
    have hopen : Tidy s false true [.mark "ARRAY["] := .mark (by decide) .nil
    have hclose : Tidy s false true [.mark "]"] := .mark (by decide) .nil
    exact (((exprs_neat es d).list comma_tidy).before hopen).after hclose
  | .unary op e, d, _ => .node _ fun _ => by
    have hop : Tidy s false false ([Piece.leaf op] ++
        (if startsWithSign s (e.pieces s d false) then [.mark " "] else [])) :=
      Tidy.append (.leaf op .loose) (word_tidy (by decide) _)
    exact (expr_neat e d false).before hop
  | .nested e, d, _ => .node _ fun _ => by
    have hopen : Tidy s false false [.mark "("] := .lead (by decide) .nil
    exact ((expr_neat e d false).before hopen).after closed_tidy
  | .verbatim t, _, _ => .of (.leaf t .nil)

theorem first_neat : (args : List Expr) → (d : Nat) → args ≠ [] →
    Neat s false true (exprNodes args) (exprQueries args) (firstOperand s d args)
  | [], _, hargs => absurd rfl hargs
  | e :: r, d, _ => by
    intro hns hqs
    rw [exprNodes, List.forall_mem_append] at hns
    rw [exprQueries, List.forall_mem_append] at hqs
    exact expr_neat e d true hns.1 hqs.1

theorem chain_neat (c : Connective) : (args : List Expr) → (d : Nat) → args ≠ [] →
    Neat s false true (exprNodes args) (exprQueries args) (chainPieces s d c args)
  | [], _, hargs => absurd rfl hargs
  | e :: r, d, _ => (expr_neat e d true).append (chainRest_neat c r d)

theorem chainRest_neat (c : Connective) : (args : List Expr) → (d : Nat) →
    Neat s true true (exprNodes args) (exprQueries args) (chainRest s d c args)
  | [], _ => .of .nil
  | e :: r, d =>
    have hc : '\n' ∉ (c.text ++ " ").toList := by cases c <;> decide
    ((expr_neat e (d + 1) true).before (.clause (d + 1) hc)).append (chainRest_neat c r d)

theorem exprs_neat : (es : List Expr) → (d : Nat) →
    NeatIn s (exprNodes es) (exprQueries es) (exprPieces s d es)
  | [], _ => .nil
  | e :: r, d => .cons (expr_neat e d false) (exprs_neat r d)

theorem option_neat {lead : List Piece} : (e : Option Expr) → (d : Nat) → Tidy s true false lead →
    Neat s true true (optionNodes e) (optionQueries e) (optionPieces s d lead e)
  | none, _, _ => .of .nil
  | some e, d, hlead => (expr_neat e d false).before hlead

theorem test_neat (op : Option String) : (test : Option Expr) → (d : Nat) →
    Neat s false false (optionNodes test) (optionQueries test) (testPieces s d op test)
  | none, _ => .of .nil
  | some e, d => by
    have hop : Tidy s false false
        (match op with
          | some o => [.leaf o, .mark " "]
          | none => []) := by
      cases op with
      | none => exact .nil
      | some o => exact .leaf o blank_tidy
    exact ((expr_neat e d false).after blank_tidy).after hop

theorem when_neat : (ws : List When) → (d : Nat) →
    Neat s true true (whenNodes ws) (whenQueries ws) (whenPieces s d ws)
  | [], _ => .of .nil
  | ⟨c, r⟩ :: ws, d => by
    have hwhen : Tidy s true false [.mark " WHEN "] := .lead (by decide) .nil
    have hthen : Tidy s true false [.mark " THEN "] := .lead (by decide) .nil
    have hcondition := ((expr_neat c d false).before hwhen).after hthen
    exact (hcondition.append (expr_neat r d false)).append (when_neat ws d)

theorem call_neat : (c : Call) → (d : Nat) → Neat s false true c.nodes c.queries (c.pieces s d)
  | ⟨name, args, distinct, star, orderBy, withinGroup, filter, window⟩, d => .node _ fun _ => by
    have hname : Tidy s false false
        (functionName s name ++ [Piece.mark "("] ++ (if distinct then [.mark "DISTINCT "] else [])) :=
      ((functionName_tidy name).append (.mark (by decide) .loose)).append (word_tidy (by decide) distinct)
    have hargs : Neat s false false (argNodes args) (argQueries args)
        (if star then [.mark "*"] else commas (argPieces s d args)) := by
      cases star with
      | true => exact .of (.mark (by decide) .loose)
      | false => exact (args_neat args d).list comma_tidy
    have horder : Neat s false false (sortNodes orderBy) (sortQueries orderBy)
        (sortClause " ORDER BY " [.mark ", "] (sortPieces s d orderBy) "") :=
      (sort_neat orderBy d).sortClause (by decide) .empty
    have hwithin : Neat s true true (sortNodes withinGroup) (sortQueries withinGroup)
        (sortClause " WITHIN GROUP (ORDER BY " [.mark ", "] (sortPieces s d withinGroup) ")") :=
      (sort_neat withinGroup d).sortClause (by decide) closed_tidy
    have hcall := (((hargs.before hname).append horder).after closed_tidy).append hwithin
    exact (hcall.append (filter_neat filter d)).append (window_neat window d)

theorem filter_neat : (filter : Option Expr) → (d : Nat) →
    Neat s true true (optionNodes filter) (optionQueries filter) (filterPieces s d filter)
  | none, _ => .of .nil
  | some e, d => by
    have hopen : Tidy s true false [.mark " FILTER (WHERE "] := .lead (by decide) .nil
    exact ((expr_neat e d false).before hopen).after closed_tidy

theorem args_neat : (args : List Arg) → (d : Nat) →
    NeatIn s (argNodes args) (argQueries args) (argPieces s d args)
  | [], _ => .nil
  | .positional e :: r, d => .cons (expr_neat e d false) (args_neat r d)
  | .named name sign e :: r, d =>
    have hname : Tidy s false false [.leaf name, .mark " ", .leaf sign, .mark " "] :=
      .leaf name (.lead (by decide) (.leaf sign blank_tidy))
    .cons ((expr_neat e d false).before hname) (args_neat r d)

theorem sort_neat : (items : List SortItem) → (d : Nat) →
    NeatIn s (sortNodes items) (sortQueries items) (sortPieces s d items)
  | [], _ => .nil
  | ⟨e, direction, nulls⟩ :: r, d =>
    .cons (((expr_neat e d false).after (direction_tidy direction)).after (nulls_tidy nulls))
      (sort_neat r d)

theorem window_neat : (w : Option Window) → (d : Nat) →
    Neat s true true (windowNodes w) (windowQueries w) (windowPieces s d w)
  | none, _ => .of .nil
  | some ⟨partitionBy, orderBy, frame⟩, d => by
    have hopen : Tidy s true true [.mark " OVER("] := .mark (by decide) .nil
    have hframe : ∀ ps ∈ (match frame with
          | some f => [[Piece.leaf f]]
          | none => []), Tidy s false true ps := by
      cases frame with
      | none => exact nofun
      | some f => exact List.forall_mem_singleton.2 (.leaf f .nil)
    have hpartition : NeatIn s (exprNodes partitionBy) (exprQueries partitionBy)
        (if (exprPieces s d partitionBy).isEmpty then []
          else [[Piece.mark "PARTITION BY "] ++ commas (exprPieces s d partitionBy)]) :=
      (exprs_neat partitionBy d).part (by decide)
    have horder : NeatIn s (sortNodes orderBy) (sortQueries orderBy)
        (if (sortPieces s d orderBy).isEmpty then []
          else [[Piece.mark "ORDER BY "] ++ commas (sortPieces s d orderBy)]) :=
      (sort_neat orderBy d).part (by decide)
    exact ((((hpartition.append horder).add hframe).list blank_tidy).before hopen).after closed_tidy

theorem query_neat : (q : Query) → (d : Nat) → Neat s false true q.nodes q.queries (q.pieces s d)
  | ⟨withClause, body, orderBy, limit, offset, locking⟩, d => by
    intro hns hqs
    have hfilled := hqs _ List.mem_cons_self
    replace hqs := fun q hq => hqs q (List.mem_cons_of_mem _ hq)
    have hblank : body.isBlank = false := Body.isBlank_of_isFilled fun n hn =>
      hns n (by simp [Query.nodes, hn])
    have hbody : (body.pieces s d).isEmpty = false := (body_isEmpty s d body).trans hblank
    rw [Query.pieces, hbody]
    have hcomma : Tidy s true false (.mark "," :: newline (d + 1)) :=
      .mark (by decide) (.newline (d + 1) .nil)
    have horder : Tidy s true false (newline d ++ [Piece.mark "ORDER BY "]) := .clause d (by decide)
    have hlimit : Tidy s true false (newline d ++ [Piece.mark "LIMIT "]) := .clause d (by decide)
    have hoffset : Tidy s true false (newline d ++ [Piece.mark "OFFSET "]) := .clause d (by decide)
    have hbodies := (with_neat withClause d hfilled.1).append (body_neat body d hfilled.2)
    have hclauses := ((hbodies.append ((sort_neat orderBy d).clause horder hcomma)).append
      (option_neat limit d hlimit)).append (option_neat offset d hoffset)
    exact hclauses.after (lockings_tidy locking d) hns hqs

theorem with_neat : (w : Option With) → (d : Nat) → (∀ x ∈ w, x.ctes ≠ []) →
    Neat s false false (withNodes w) (withQueries w) (withPieces s d w)
  | none, _, _ => .of .nil
  | some ⟨isRecursive, ctes⟩, d, hne => by
    intro hns hqs
    have hctes := ctes_neat ctes d hns hqs
    have hlead : Tidy s false false
        ([Piece.indent d, .mark "WITH "] ++ (if isRecursive then [.mark "RECURSIVE "] else [])) :=
      Tidy.append (.indent d (.lead (by decide) .nil)) (word_tidy (by decide) isRecursive)
    have hpieces : ctePieces s d ctes ≠ [] := by
      cases ctes with
      | nil => exact absurd rfl (hne _ rfl)
      | cons w r => cases w; exact List.cons_ne_nil _ _
    exact (hlead.append (.commas hctes hpieces)).append (.lineBreak .nil)

theorem ctes_neat : (ws : List Cte) → (d : Nat) →
    NeatIn s (cteNodes ws) (cteQueries ws) (ctePieces s d ws)
  | [], _ => .nil
  | ⟨name, materialized, q⟩ :: r, d => by
    have hmaterialized : Tidy s false false
        (match materialized with
          | some m => [.leaf m, .mark " "]
          | none => []) := by
      cases materialized with
      | none => exact .nil
      | some m => exact .leaf m blank_tidy
    have hname : Tidy s false false [.leaf name, .mark " AS "] := .leaf name (.lead (by decide) .nil)
    have hopen : Tidy s false false [.mark "(", .lineBreak] := .mark (by decide) (.lineBreak .nil)
    have hquery := (query_neat q (d + 1)).before ((hname.append hmaterialized).append hopen)
    exact .cons ((hquery.after (.newline d .nil)).after closed_tidy) (ctes_neat r d)

theorem body_neat : (b : Body) → (d : Nat) → b.HasRows →
    Neat s false true b.nodes b.queries (b.pieces s d)
  | .select x, d, _ => select_neat x d
  | .setOp op all l r, d, h => by
    have hop : Tidy s true false
        (newline d ++ [Piece.mark (op.text ++ if all then " ALL" else "")] ++ [Piece.lineBreak]) :=
      .newline d (.mark (by cases op <;> cases all <;> decide) (.lineBreak .nil))
    rw [Body.pieces, List.append_assoc _ (newline d), List.append_assoc _ _ [Piece.lineBreak]]
    exact ((body_neat l d h.1).after hop).append (body_neat r d h.2)
  | .values rows, d, h => by
    intro hns hqs
    have hrows := rows_neat rows d hns hqs
    have hpieces : rowPieces s d rows ≠ [] := by
      cases rows with
      | nil => exact absurd rfl h
      | cons es r => exact List.cons_ne_nil _ _
    exact .indent d (.lead (by decide) (.commas hrows hpieces))
  | .query q, d, _ => by
    have hopen : Tidy s false false [.indent d, .mark "(", .lineBreak] :=
      .indent d (.mark (by decide) (.lineBreak .nil))
    exact (((query_neat q (d + 1)).before hopen).after (.newline d .nil)).after closed_tidy

theorem rows_neat : (rows : List (List Expr)) → (d : Nat) →
    NeatIn s (rowNodes rows) (rowQueries rows) (rowPieces s d rows)
  | [], _ => .nil
  | es :: r, d => by
    have hopen : Tidy s false true [.mark "("] := .mark (by decide) .nil
    have hrow := ((exprs_neat es (d + 1)).lines (d + 1)).before hopen
    exact .cons ((hrow.after (.newline d .nil)).after closed_tidy) (rows_neat r d)

theorem select_neat : (x : Select) → (d : Nat) → Neat s false true x.nodes x.queries (x.pieces s d)
  | ⟨distinct, targets, source, condition, groupBy, having⟩, d => .node _ fun htargets => by
    have hpieces : (targetPieces s (d + 1) targets).isEmpty = false := by
      rw [targetPieces_isEmpty, List.isEmpty_eq_false_iff]
      exact htargets
    rw [Select.pieces, hpieces]
    have hlead : Tidy s false true [.indent d, .mark "SELECT"] := .indent d (.mark (by decide) .nil)
    have hfrom : Tidy s true false (newline d ++ [Piece.mark "FROM "]) := .clause d (by decide)
    have hwhere : Tidy s true false (newline d ++ [Piece.mark "WHERE "]) := .clause d (by decide)
    have hgroup : Tidy s true false (newline d ++ [Piece.mark "GROUP BY "]) := .clause d (by decide)
    have hhaving : Tidy s true false (newline d ++ [Piece.mark "HAVING "]) := .clause d (by decide)
    have hselect := ((distinct_neat distinct d).before hlead).append
      ((targets_neat targets (d + 1)).lines (d + 1))
    have hrows := (hselect.append ((from_neat source d).clause hfrom comma_tidy)).append
      (option_neat condition d hwhere)
    exact (hrows.append ((exprs_neat groupBy d).clause hgroup comma_tidy)).append
      (option_neat having d hhaving)

theorem distinct_neat : (x : Option Distinct) → (d : Nat) →
    Neat s true true (distinctNodes x) (distinctQueries x) (distinctPieces s d x)
  | none, _ => .of .nil
  | some .rows, _ => .of (.mark (by decide) .nil)
  | some (.on es), d => by
    have hopen : Tidy s true true [.mark " DISTINCT ON ("] := .mark (by decide) .nil
    exact (((exprs_neat es d).list comma_tidy).before hopen).after closed_tidy

theorem targets_neat : (ts : List Target) → (d : Nat) →
    NeatIn s (targetNodes ts) (targetQueries ts) (targetPieces s d ts)
  | [], _ => .nil
  | ⟨e, name⟩ :: r, d => .cons ((expr_neat e d false).after (targetName_tidy name)) (targets_neat r d)

theorem from_neat : (fs : List FromItem) → (d : Nat) →
    NeatIn s (fromNodes fs) (fromQueries fs) (fromPieces s d fs)
  | [], _ => .nil
  | f :: r, d => .cons (fromItem_neat f d) (from_neat r d)

theorem fromItem_neat : (f : FromItem) → (d : Nat) → Neat s false true f.nodes f.queries (f.pieces s d)
  | .table t, _ => .of (tableName_tidy t)
  | .function isLateral call aliasName, d =>
    ((call_neat call d).before (word_tidy (by decide) isLateral)).after (aliasPieces_tidy aliasName)
  | .subquery isLateral q aliasName, d => by
    have hopen : Tidy s false false
        ((if isLateral then [.mark "LATERAL "] else []) ++ [Piece.mark "(", .lineBreak]) :=
      (word_tidy (by decide) isLateral).append (.mark (by decide) (.lineBreak .nil))
    have hquery := (((query_neat q (d + 1)).before hopen).after (.newline d .nil)).after closed_tidy
    exact hquery.after (aliasPieces_tidy aliasName)
  | .join kind natural l r condition, d => by
    have hkind : '\n' ∉ (kind.text ++ " ").toList := by cases kind <;> decide
    have hnatural : Tidy s false false (if natural then [.mark "NATURAL "] else []) :=
      word_tidy (by decide) natural
    have hlead : Tidy s false false [.mark (kind.text ++ " ")] := .lead hkind .nil
    have hbreak (j : Nat) : Tidy s true false (newline j) := .newline j .nil
    have hjoin (j : Nat) := (((fromItem_neat l d).after (hbreak j)).after hnatural).after hlead
    exact ((hjoin _).append (fromItem_neat r _)).append (joinCondition_neat condition _)
  | .verbatim t, _ => .of (.leaf t .nil)

theorem joinCondition_neat : (c : JoinCondition) → (d : Nat) →
    Neat s true true c.nodes c.queries (c.pieces s d)
  | .on e, d => by
    rw [JoinCondition.pieces]
    split
    · exact (expr_neat e (d + 1) false).before (.clause (d + 1) (by decide))
    · exact (expr_neat e d false).before (.lead (by decide) .nil)
  | .byColumns cs, _ => .of (by
    have hopen : Tidy s true true [.mark " USING("] := .mark (by decide) .nil
    exact (hopen.append (names_tidy cs)).append closed_tidy)
  | .none, _ => .of .nil

end

theorem returning_neat (ts : List Target) :
    Neat s true true (targetNodes ts) (targetQueries ts) (returningPieces s ts) := by
  have hlead : Tidy s true false (newline 0 ++ [Piece.mark "RETURNING "]) := .clause 0 (by decide)
  have hclause := (targets_neat ts 0).clause hlead comma_tidy
  rwa [targetPieces_isEmpty] at hclause

theorem where_neat (condition : Option Expr) :
    Neat s true true (optionNodes condition) (optionQueries condition) (wherePieces s condition) :=
  option_neat condition 0 (.clause 0 (by decide))

theorem assignments_neat (as : List Assignment) :
    Neat s true true (assignmentNodes as) (exprQueries (as.map Assignment.value))
      (assignmentPieces s as) := by
  have hlines : NeatIn s (assignmentNodes as) (exprQueries (as.map Assignment.value))
      (as.map fun a => [Piece.leaf a.target, .mark " = "] ++ a.value.pieces s 1 false) := by
    induction as with
    | nil => exact .nil
    | cons a r ih =>
      have htarget : Tidy s false false [.leaf a.target, .mark " = "] :=
        .leaf a.target (.lead (by decide) .nil)
      exact .cons ((expr_neat a.value 1 false).before htarget) ih
  simpa [assignmentPieces, Function.comp_def] using hlines.lines 1

theorem conflictAction_neat (target : Option ConflictTarget) : (x : ConflictAction) →
    Neat s true true (OnConflict.nodes ⟨target, x⟩) (OnConflict.queries ⟨target, x⟩) (x.pieces s)
  | .nothing => .of (.newline 0 (.mark (by decide) .nil))
  | .update as condition => by
    have hupdate : Tidy s true true (newline 0 ++ [Piece.mark "DO UPDATE SET"]) :=
      .newline 0 (.mark (by decide) .nil)
    exact ((assignments_neat as).before hupdate).append (where_neat condition)

theorem onConflict_neat : (c : Option OnConflict) →
    Neat s true true (c.elim [] OnConflict.nodes) (c.elim [] OnConflict.queries)
      (match c with
        | some c => c.pieces s
        | none => [])
  | none => .of .nil
  | some ⟨target, action⟩ => by
    have hlead : Tidy s true true (newline 0 ++ [Piece.mark "ON CONFLICT"]) :=
      .newline 0 (.mark (by decide) .nil)
    exact (conflictAction_neat target action).before (hlead.append (conflictTarget_tidy target))

/-- Rows of values fill the line that they start on. -/
theorem insertSource_neat : (x : InsertSource) → Neat s false true x.nodes x.queries (x.pieces s)
  | .values rows => by
    intro hns hqs
    have hrows : rows ≠ [] := (hqs _ List.mem_cons_self).2
    have hpieces : rowPieces s 0 rows ≠ [] := by
      cases rows with
      | nil => exact absurd rfl hrows
      | cons es r => exact List.cons_ne_nil _ _
    have hqueries : ∀ q ∈ rowQueries rows, q.IsFilled := fun q hq =>
      hqs q (by simp [InsertSource.queries, Query.queries, Body.queries, hq])
    exact .lead (by decide) (.commas (rows_neat rows 0 hns hqueries) hpieces)
  | .query q => query_neat q 0
  | .defaultValues => .of (.mark (by decide) .nil)

theorem statement_neat : (t : Statement) → Neat s false true t.nodes t.queries (t.pieces s)
  | .select q => query_neat q 0
  | .insert i => by
    have hinto : Tidy s false true [.mark "INSERT INTO ", .leaf i.table] :=
      .lead (by decide) (.leaf i.table .nil)
    have hlead := (hinto.append (targetName_tidy i.aliasName)).append (insertColumns_tidy i.columns)
    have hsource := (insertSource_neat i.source).before hlead
    exact (hsource.append (onConflict_neat i.onConflict)).append (returning_neat i.returning)
  | .update u => by
    have hupdate : Tidy s false false [.mark "UPDATE "] := .lead (by decide) .nil
    have hbreak : Tidy s true false (newline 0) := .newline 0 .nil
    have hset : Tidy s false true [.mark "SET"] := .mark (by decide) .nil
    have hlead := ((hupdate.append (tableName_tidy u.table)).append hbreak).append hset
    have hassignments := (assignments_neat u.assignments).before hlead
    exact (hassignments.append (where_neat u.condition)).append (returning_neat u.returning)
  | .delete x => by
    have hdelete : Tidy s false false [.mark "DELETE FROM "] := .lead (by decide) .nil
    have hcondition := (where_neat x.condition).before (hdelete.append (tableName_tidy x.table))
    exact hcondition.append (returning_neat x.returning)

/-- No line of a layout is empty or ends with a blank, and the layout has no line break at either end, if
the texts of the tree are within a line and end with a character that shows and if no list that has to
fill a line is empty. -/
theorem render_hasCleanLines (s : Style) {t : Statement} (htexts : ∀ l ∈ t.leaves, l.EndsShown)
    (hnodes : ∀ n ∈ t.nodes, n.IsFilled) (hqueries : ∀ q ∈ t.queries, q.IsFilled) :
    HasCleanLines (t.render s) ∧
      (t.render s).toList.head? ≠ some '\n' ∧ (t.render s).toList.getLast? ≠ some '\n' := by
  have hwritten : ∀ text ∈ leafTexts (t.pieces s), EndsShown text := by
    rw [leafTexts_emitted, List.forall_mem_map]
    exact fun l hl => (htexts l ((statement_emits t).sublist.subset hl)).written s
  obtain ⟨shown, hshown, hscan⟩ := statement_neat (s := s) t hnodes hqueries hwritten false nofun
  obtain rfl := hshown rfl
  have hclean := Text.hasCleanLines_of_shownAfter hscan
  exact ⟨hclean, hclean.ends⟩

/-- `with w as (values (' ')) select a from w where b and c`: the blank of the string has a quote after
it. -/
theorem render_hasCleanLines_named :
    let rows : Query := ⟨none, .values [[.const (.string " ")]], [], none, none, []⟩
    let condition : Expr := .logic .and [.column ["b"] false, .column ["c"] false]
    let t : Statement :=
      .select ⟨some ⟨false, [⟨"w", none, rows⟩]⟩,
        .select ⟨none, [⟨.column ["a"] false, none⟩], [.table ⟨none, "w", none⟩], some condition, [],
          none⟩,
        [], none, none, []⟩
    (∀ l ∈ t.leaves, l.EndsShown) ∧ (∀ n ∈ t.nodes, n.IsFilled) ∧ (∀ q ∈ t.queries, q.IsFilled) ∧
      HasCleanLines
        "WITH w AS (\n  VALUES (\n    ' '\n  )\n)\nSELECT\n  a\nFROM w\nWHERE b\n  AND c" := by
  intro rows condition t
  have htexts : ∀ l ∈ t.leaves, l.EndsShown := by decide
  have hnodes : ∀ n ∈ t.nodes, n.IsFilled := by
    simp [t, rows, condition, Statement.nodes, Query.nodes, withNodes, cteNodes, Body.nodes, rowNodes,
      Select.nodes, distinctNodes, targetNodes, fromNodes, FromItem.nodes, optionNodes, exprNodes,
      sortNodes, Expr.nodes, Node.IsFilled]
  have hqueries : ∀ q ∈ t.queries, q.IsFilled := by
    simp [t, rows, condition, Statement.queries, Query.queries, withQueries, cteQueries, Body.queries,
      rowQueries, Select.queries, distinctQueries, targetQueries, fromQueries, FromItem.queries,
      optionQueries, exprQueries, sortQueries, Expr.queries, Query.IsFilled, Body.HasRows]
  have hrender : t.render {} =
      "WITH w AS (\n  VALUES (\n    ' '\n  )\n)\nSELECT\n  a\nFROM w\nWHERE b\n  AND c" := by
    decide +kernel
  exact ⟨htexts, hnodes, hqueries, hrender ▸ (render_hasCleanLines {} htexts hnodes hqueries).1⟩

end SqlLayout.Layout
