import Mathlib
import SqlLayout.Proofs.Fences
import SqlLayout.Proofs.Markers

/-!
Restoring the placeholders of a laid-out statement. It does the same as restoring them in the texts of
the tree and laying that tree out: no marker reaches over the end of a text, and no decision of the
layout hangs on a marker.
-/

namespace SqlLayout.Placeholder

/-! ### Restoring texts -/

/-- No character of a text stands in the marker of a parameter. -/
def Outside (cs : List Char) : Prop :=
  ∀ c ∈ cs, c ∉ paramMarker.toList

instance (cs : List Char) : Decidable (Outside cs) :=
  inferInstanceAs (Decidable (∀ _ ∈ _, _))

/-- A marker that has started before the end of a text does not go on after it. -/
def Closed (cs : List Char) : Prop :=
  ∀ c ∈ cs.getLast?, c ∉ paramMarker.toList

variable {cs ds : List Char}

theorem restored_outside (h : Outside cs) : restored cs = cs := by
  induction cs with
  | nil => rfl
  | cons c r ih =>
    rw [restored_cons, ih fun d hd => h d (List.mem_cons_of_mem c hd)]
    rintro rfl
    exact h 't' List.mem_cons_self (by decide)

theorem Closed.restored_append (h : Closed cs) (ds : List Char) :
    restored (cs ++ ds) = restored cs ++ restored ds :=
  Text.replaceFrom_append cs (Text.parted_of_last fun c hc hmem =>
    h c hc (List.dropLast_subset _ hmem)) 0 (Nat.zero_le _)

theorem restored_append_outside (cs : List Char) (h : Outside ds) :
    restored (cs ++ ds) = restored cs ++ ds := by
  have hparted : Text.Parted paramMarker.toList cs ds :=
    Text.parted_of_head fun c hc hmem =>
      h c (List.mem_of_mem_head? hc) (List.mem_of_mem_tail hmem)
  rw [restored, Text.replaceFrom_append cs hparted 0 (Nat.zero_le _), ← restored, ← restored,
    restored_outside h]

theorem Closed.append_outside (hclosed : Closed cs) (h : Outside ds) : Closed (cs ++ ds) := by
  intro c hc
  rw [List.getLast?_append] at hc
  cases hlast : ds.getLast? with
  | none => exact hclosed c (by simpa [hlast] using hc)
  | some d =>
    have hd : d = c := by simpa [hlast] using hc
    exact h c (hd ▸ List.mem_of_getLast? hlast)

theorem closed_append_outside (cs : List Char) (h : Outside ds) (hne : ds ≠ []) :
    Closed (cs ++ ds) := by
  intro c hc
  rw [List.getLast?_append_of_ne_nil _ hne] at hc
  exact h c (List.mem_of_getLast? hc)

theorem restored_eq_self (h : ':' ∉ restored cs) : restored cs = cs := by
  by_cases hoccurs : paramMarker.toList <:+: cs
  · exact absurd (Text.subset_replaceFrom hoccurs (by decide) List.mem_cons_self) h
  · exact Text.replaceFrom_of_not_infix hoccurs

/-- A character outside the marker divides a text. -/
theorem restored_append_cons (cs ds : List Char) {c : Char} (hc : c ∉ paramMarker.toList) :
    restored (cs ++ c :: ds) = restored cs ++ c :: restored ds := by
  have hmark : Outside [c] := by simpa [Outside] using hc
  have hclosed := closed_append_outside cs hmark (List.cons_ne_nil c [])
  rw [List.append_cons, hclosed.restored_append, restored_append_outside cs hmark,
    List.append_assoc, List.singleton_append]

/-- A character of a string, with quotes doubled. -/
def doubled (c : Char) : List Char :=
  if c = '\x27' then ['\x27', '\x27'] else [c]

theorem restored_flatMap_doubled (hcs : '\x27' ∉ cs) : (restored cs).flatMap doubled = restored cs := by
  have hsingle : ∀ c ∈ restored cs, doubled c = [c] := by
    intro c hc
    refine if_neg ?_
    rintro rfl
    exact (Text.mem_replaceFrom hc).elim hcs (by decide)
  rw [List.flatMap_congr hsingle, List.flatMap_singleton']

/-- By induction on the second text; the first one is what has been read since the last quote. -/
theorem restored_doubled (cs ds : List Char) (hcs : '\x27' ∉ cs) :
    restored (cs ++ ds.flatMap doubled) = (restored (cs ++ ds)).flatMap doubled := by
  have hquote : '\x27' ∉ paramMarker.toList := by decide
  induction ds generalizing cs with
  | nil => simpa using (restored_flatMap_doubled hcs).symm
  | cons c r ih =>
    by_cases hc : c = '\x27'
    · subst hc
      have hrest := ih [] List.not_mem_nil
      have hleft : restored (cs ++ '\x27' :: '\x27' :: r.flatMap doubled) =
          restored cs ++ '\x27' :: '\x27' :: restored (r.flatMap doubled) := by
        rw [restored_append_cons cs _ hquote, restored_cons (by decide)]
      rw [List.nil_append, List.nil_append] at hrest
      rw [restored_append_cons cs r hquote, List.flatMap_append, restored_flatMap_doubled hcs,
        List.flatMap_cons, List.flatMap_cons, ← hrest]
      exact hleft
    · have hnext := ih (cs ++ [c]) (by simpa using ⟨hcs, Ne.symm hc⟩)
      rw [List.append_assoc, List.append_assoc] at hnext
      rw [List.flatMap_cons, doubled, if_neg hc]
      exact hnext

theorem restore_eq (text : String) : restore text = String.ofList (restored text.toList) := by
  rw [← restore_toList, String.ofList_toList]

theorem restore_outside {text : String} (h : Outside text.toList) : restore text = text := by
  rw [restore_eq, restored_outside h, String.ofList_toList]

theorem restore_of_not_infix {text : String} (h : ¬ paramMarker.toList <:+: text.toList) :
    restore text = text := by
  have hsame : restored text.toList = text.toList := Text.replaceFrom_of_not_infix h
  rw [restore_eq, hsame, String.ofList_toList]

end SqlLayout.Placeholder

namespace SqlLayout.Text

/-- Beyond ASCII, or a capital letter of ASCII. -/
def IsCapital (x : Char) : Prop :=
  128 ≤ x.toNat ∨ (65 ≤ x.toNat ∧ x.toNat ≤ 90)

theorem eq_of_toUpper_eq {c x : Char} (hx : ¬ IsCapital x) (h : c.toUpper = x) : c = x := by
  unfold Char.toUpper at h
  split at h
  · rename_i hc
    have hval := congrArg (fun c : Char => c.val.toNat) h
    have hx' : ¬ (128 ≤ x.val.toNat ∨ (65 ≤ x.val.toNat ∧ x.val.toNat ≤ 90)) := hx
    simp only [UInt32.le_iff_toNat_le, UInt32.toNat_add] at hc hval
    have hshift : ('A'.val - 'a'.val).toNat = 4294967264 := by decide
    have hlow : 'a'.val.toNat = 97 := by decide
    have hhigh : 'z'.val.toNat = 122 := by decide
    omega
  · exact h

theorem eq_toNat_of_ofNat_eq {n : Nat} {x : Char} (hx : x ≠ '\x00') (h : Char.ofNat n = x) :
    n = x.toNat := by
  unfold Char.ofNat at h
  split at h
  · exact congrArg Char.toNat h
  · exact absurd h.symm hx

set_option maxRecDepth 4000 in
theorem isCapital_of_shiftBy_eq {c x : Char} (hc : 128 ≤ c.toNat) (hx : x ≠ '\x00')
    (h : shiftBy upperRuns c = x) : IsCapital x := by
  have hruns : ∀ r ∈ upperRuns, 128 ≤ (r.first : Int) + r.shift ∨
      (65 ≤ (r.first : Int) + r.shift ∧ (r.last : Int) + r.shift ≤ 90) := by
    decide
  unfold shiftBy at h
  split at h
  · rename_i r hr
    have hcontains : r.contains c.toNat = true := by simpa using List.find?_some hr
    have hbound := hruns r (List.mem_of_find?_eq_some hr)
    have hshifted := eq_toNat_of_ofNat_eq hx h
    simp only [CaseRun.contains, Bool.and_eq_true, decide_eq_true_eq] at hcontains
    unfold IsCapital
    omega
  · exact .inl (h ▸ hc)

/-- An upper case that is no capital letter is that of itself. -/
theorem eq_of_mem_upperLetter {c x : Char} (hcapital : ¬ IsCapital x) (hx : x ≠ '\x00')
    (h : x ∈ upperLetter c) : c = x := by
  have hspellings : ∀ e ∈ upperSpellings, ∀ n ∈ e.2, 128 ≤ n ∨ (65 ≤ n ∧ n ≤ 90) := by decide
  unfold upperLetter at h
  split at h
  · exact eq_of_toUpper_eq hcapital (List.mem_singleton.1 h).symm
  · rename_i hc
    split at h
    · rename_i ns hfind
      obtain ⟨n, hn, heq⟩ := List.mem_map.1 h
      have hspelled := hspellings _ (List.mem_of_find?_eq_some hfind) n hn
      rw [eq_toNat_of_ofNat_eq hx heq] at hspelled
      exact absurd hspelled hcapital
    · have hshifted : shiftBy upperRuns c = x := (List.mem_singleton.1 h).symm
      exact absurd (isCapital_of_shiftBy_eq (Nat.not_lt.1 hc) hx hshifted) hcapital

theorem upper_toList (s : String) : (upper s).toList = s.toList.flatMap upperLetter := by
  unfold upper
  split
  · rename_i hascii
    have hletter : ∀ c ∈ s.toList, upperLetter c = [c.toUpper] := by
      intro c hc
      have hlow : c.toNat < 128 := by simpa using List.all_eq_true.1 hascii c hc
      rw [upperLetter, if_pos hlow]
    rw [asciiUpper, String.toList_ofList, List.flatMap_congr hletter, List.map_eq_flatMap]
  · rw [String.toList_ofList]

/-- No text has an upper case with a small `t`. -/
theorem not_mem_upper (s : String) : 't' ∉ (upper s).toList := by
  rw [upper_toList, List.mem_flatMap]
  rintro ⟨c, -, hc⟩
  have heq : c = 't' := eq_of_mem_upperLetter (by unfold IsCapital; decide) (by decide) hc
  subst heq
  exact absurd hc (by decide)

end SqlLayout.Text

namespace SqlLayout.Layout

open Placeholder (restore restored)
open Piece (newline)

/-! ### Decisions of the layout -/

/-- A constant with its text changed. -/
def Const.mapText (f : String → String) : Const → Const
  | .number digits => .number (f digits)
  | .string text => .string (f text)
  | c => c

theorem text_restored (c : Const) : (c.mapText restore).text = restore c.text := by
  cases c with
  | number digits => rfl
  | boolean b => cases b <;> decide
  | null => decide
  | string text =>
    have hquote : '\x27' ∉ Placeholder.paramMarker.toList := by decide
    have hinner := Placeholder.restored_doubled [] text.toList List.not_mem_nil
    have houtside : Placeholder.Outside ['\x27'] := by simpa [Placeholder.Outside] using hquote
    have hdoubled (u : String) : (Text.replaceAll "'" "''" u).toList =
        u.toList.flatMap Placeholder.doubled := by
      rw [Text.replaceAll, String.toList_ofList]
      exact Text.replaceFrom_singleton '\x27' _ u.toList
    have hall (u : String) : (Const.string u).text.toList =
        '\x27' :: (u.toList.flatMap Placeholder.doubled ++ ['\x27']) := by
      simp [Const.text, hdoubled]
    rw [← String.toList_inj, Placeholder.restore_toList, Const.mapText, hall, hall,
      Placeholder.restored_cons (by decide), Placeholder.restored_append_outside _ houtside,
      Placeholder.restore_toList]
    simp only [List.nil_append] at hinner
    rw [hinner]

theorem operatorText_restored (op : String) : operatorText (restore op) = restore (operatorText op) := by
  by_cases hop : op = "<>"
  · subst hop
    decide
  · have hrestored : restore op ≠ "<>" := by
      intro h
      have hlist : restored op.toList = ['<', '>'] := by
        rw [← Placeholder.restore_toList, h]
        rfl
      have hsame : restored op.toList = op.toList := Placeholder.restored_eq_self (by simp [hlist])
      exact hop (String.toList_inj.1 (hsame.symm.trans hlist))
    simp [operatorText, hop, hrestored]

theorem keyword_restored {word : String} (h : ¬ Placeholder.paramMarker.toList <:+: word.toList) :
    Text.upper (restore word) = restore (Text.upper word) := by
  have hupper : ¬ Placeholder.paramMarker.toList <:+: (Text.upper word).toList := fun hoccurs =>
    Text.not_mem_upper word (hoccurs.subset (by decide))
  rw [Placeholder.restore_of_not_infix h, Placeholder.restore_of_not_infix hupper]

/-- The names of the known functions have neither a marker nor a colon. -/
theorem knownFunctions_plain : ∀ n ∈ knownFunctions,
    ':' ∉ (Text.asciiLower n).toList ∧ ¬ Placeholder.paramMarker.toList <:+: (Text.asciiLower n).toList ∧
      restore n = n ∧ restore (Text.asciiUpper n) = Text.asciiUpper n := by
  decide +kernel

theorem casedName_restored (c : NameCase) (name : String) :
    casedName c (restore name) = restore (casedName c name) := by
  by_cases hoccurs : Placeholder.paramMarker.toList <:+: name.toList
  · have hcolon : ':' ∈ (restore name).toList := by
      rw [Placeholder.restore_toList]
      exact Text.subset_replaceFrom hoccurs (by decide) List.mem_cons_self
    have hlower : Placeholder.paramMarker.toList <:+: (Text.asciiLower name).toList := by
      rw [Text.asciiLower, String.toList_ofList]
      exact hoccurs.map Char.toLower
    have hlowerColon : ':' ∈ (Text.asciiLower (restore name)).toList := by
      rw [Text.asciiLower, String.toList_ofList]
      exact List.mem_map_of_mem (f := Char.toLower) hcolon
    have hunknown : ∀ n ∈ knownFunctions, ¬ Text.eqIgnoreCase n name = true := by
      intro n hn heq
      rw [Text.eqIgnoreCase, beq_iff_eq] at heq
      exact (knownFunctions_plain n hn).2.1 (by rwa [heq])
    have hunknown' : ∀ n ∈ knownFunctions, ¬ Text.eqIgnoreCase n (restore name) = true := by
      intro n hn heq
      rw [Text.eqIgnoreCase, beq_iff_eq] at heq
      exact (knownFunctions_plain n hn).1 (by rwa [heq])
    rw [casedName, casedName, knownName?, knownName?, List.find?_eq_none.2 hunknown,
      List.find?_eq_none.2 hunknown']
    rfl
  · have hsame := Placeholder.restore_of_not_infix hoccurs
    rw [hsame]
    cases hfind : knownFunctions.find? (Text.eqIgnoreCase · name) with
    | none => simp [casedName, knownName?, hfind, hsame]
    | some n =>
      obtain ⟨-, -, hlower, hupper⟩ := knownFunctions_plain n (List.mem_of_find?_eq_some hfind)
      cases c with
      | lower => simp [casedName, knownName?, hfind, hlower]
      | upper => simp [casedName, knownName?, hfind, hupper]

/-- A piece with its text changed, if it is a text of the tree. -/
def Piece.mapText (f : String → String) : Piece → Piece
  | .leaf t => .leaf (f t)
  | p => p

/-- Pieces whose texts of the tree have their placeholders back. -/
def restoredPieces (ps : List Piece) : List Piece :=
  ps.map (Piece.mapText restore)

variable {s : Style} {ps qs : List Piece} {pss : List (List Piece)}

/-- Whether a text starts with a sign. -/
def isSigned (cs : List Char) : Bool :=
  cs.head?.any ['-', '+'].contains

theorem startsWithSign_eq (s : Style) (ps : List Piece) :
    startsWithSign s ps = isSigned (Piece.textOf s ps).toList := by
  unfold startsWithSign isSigned
  split
  · rename_i heq
    rw [heq]
    rfl
  · rename_i heq
    rw [heq]
    rfl
  · rename_i hminus hplus
    cases htext : (Piece.textOf s ps).toList with
    | nil => rfl
    | cons c r =>
      have hne : c ≠ '-' ∧ c ≠ '+' :=
        ⟨fun h => hminus r (h ▸ htext), fun h => hplus r (h ▸ htext)⟩
      simp [hne]

theorem isSigned_append (cs : List Char) {ds es : List Char} (h : isSigned ds = isSigned es) :
    isSigned (cs ++ ds) = isSigned (cs ++ es) := by
  cases cs with
  | nil => exact h
  | cons => rfl

/-- Restoring a text changes its first character only where a marker becomes a colon. -/
theorem isSigned_restored (cs : List Char) {ds es : List Char} (h : isSigned ds = isSigned es) :
    isSigned (restored cs ++ ds) = isSigned (cs ++ es) := by
  by_cases hprefix : Placeholder.paramMarker.toList <+: cs
  · obtain ⟨r, rfl⟩ := hprefix
    rfl
  · cases cs with
    | nil => exact h
    | cons c r =>
      have hrestored : restored (c :: r) = c :: restored r := by
        rw [← List.isPrefixOf_iff_prefix] at hprefix
        exact if_neg hprefix
      rw [hrestored]
      rfl

theorem startsWithSign_restored (s : Style) (ps : List Piece) :
    startsWithSign s (restoredPieces ps) = startsWithSign s ps := by
  simp only [startsWithSign_eq]
  induction ps with
  | nil => rfl
  | cons p ps ih =>
    have hfixed : isSigned ((p.text s).toList ++ (Piece.textOf s (restoredPieces ps)).toList) =
        isSigned ((p.text s).toList ++ (Piece.textOf s ps).toList) :=
      isSigned_append _ ih
    cases p with
    | leaf t =>
      simpa [restoredPieces, Piece.mapText, Piece.text, Placeholder.restore_toList] using
        isSigned_restored t.toList ih
    | mark | lineBreak | indent => simpa [restoredPieces, Piece.mapText] using hfixed

section

@[simp] theorem restoredPieces_nil : restoredPieces [] = [] := rfl

@[simp] theorem restoredPieces_mark (m : String) :
    restoredPieces (.mark m :: ps) = .mark m :: restoredPieces ps := rfl

@[simp] theorem restoredPieces_leaf (t : String) :
    restoredPieces (.leaf t :: ps) = .leaf (restore t) :: restoredPieces ps := rfl

@[simp] theorem restoredPieces_lineBreak :
    restoredPieces (.lineBreak :: ps) = .lineBreak :: restoredPieces ps := rfl

@[simp] theorem restoredPieces_indent (d : Nat) :
    restoredPieces (.indent d :: ps) = .indent d :: restoredPieces ps := rfl

@[simp] theorem restoredPieces_append :
    restoredPieces (ps ++ qs) = restoredPieces ps ++ restoredPieces qs :=
  List.map_append

@[simp] theorem restoredPieces_newline (d : Nat) :
    restoredPieces (Piece.newline d) = Piece.newline d := rfl

@[simp] theorem restoredPieces_isEmpty : (restoredPieces ps).isEmpty = ps.isEmpty := by
  cases ps <;> rfl

@[simp] theorem restoredPieces_ite {p : Prop} [Decidable p] :
    restoredPieces (if p then ps else qs) = if p then restoredPieces ps else restoredPieces qs := by
  split <;> rfl

@[simp] theorem restoredPieces_brackets (n : Nat) :
    restoredPieces (List.replicate n (.mark "[]")) = List.replicate n (.mark "[]") := by
  simp [restoredPieces, Piece.mapText]

@[simp] theorem restoredPieces_notMark (negated : Bool) :
    restoredPieces (notMark negated) = notMark negated := by
  cases negated <;> rfl

theorem restoredPieces_sepBy (separator : List Piece) :
    restoredPieces (Piece.sepBy separator pss) =
      Piece.sepBy (restoredPieces separator) (pss.map restoredPieces) := by
  fun_induction Piece.sepBy separator pss with
  | case1 => rfl
  | case2 => rfl
  | case3 ps qs r ih => simp [ih, Piece.sepBy]

@[simp] theorem restoredPieces_sepBy_mark (m : String) :
    restoredPieces (Piece.sepBy [.mark m] pss) = Piece.sepBy [.mark m] (pss.map restoredPieces) :=
  restoredPieces_sepBy _

@[simp] theorem restoredPieces_leaves (separator : String) (ts : List String) :
    restoredPieces (Piece.leaves separator ts) = Piece.leaves separator (ts.map restore) := by
  simp [Piece.leaves, Function.comp_def]

end

/-! ### Trees with changed texts -/

def TableName.mapTexts (f : String → String) (t : TableName) : TableName :=
  ⟨t.schema.map f, f t.name, t.aliasName.map f⟩

def Locking.mapTexts (f : String → String) (l : Locking) : Locking :=
  { l with of := l.of.map f }

mutual

/-- An expression with its texts changed. -/
def Expr.mapTexts (f : String → String) : Expr → Expr
  | .column fields wildcard => .column (fields.map f) wildcard
  | .keyword word => .keyword (f word)
  | .const c => .const (c.mapText f)
  | .param n => .param n
  | .call c => .call (c.mapTexts f)
  | .operation q op l r escape =>
    .operation q (f op) (l.mapTexts f) (r.mapTexts f) (mapOption f escape)
  | .logic c args => .logic c (mapExprs f args)
  | .nullTest e t => .nullTest (e.mapTexts f) t
  | .truthTest e t => .truthTest (e.mapTexts f) t
  | .cast e typeName bounds => .cast (e.mapTexts f) (f typeName) bounds
  | .caseOf arg whens default => .caseOf (mapOption f arg) (mapWhens f whens) (mapOption f default)
  | .coalesce args => .coalesce (mapExprs f args)
  | .link kind test op negated q =>
    .link kind (mapOption f test) (op.map f) negated (q.mapTexts f)
  | .inList e list negated => .inList (e.mapTexts f) (mapExprs f list) negated
  | .between e low high negated =>
    .between (e.mapTexts f) (low.mapTexts f) (high.mapTexts f) negated
  | .array es => .array (mapExprs f es)
  | .unary op e => .unary (f op) (e.mapTexts f)
  | .nested e => .nested (e.mapTexts f)
  | .verbatim t => .verbatim (f t)

def mapExprs (f : String → String) : List Expr → List Expr
  | [] => []
  | e :: r => e.mapTexts f :: mapExprs f r

def mapOption (f : String → String) : Option Expr → Option Expr
  | none => none
  | some e => some (e.mapTexts f)

def mapWhens (f : String → String) : List When → List When
  | [] => []
  | ⟨c, r⟩ :: ws => ⟨c.mapTexts f, r.mapTexts f⟩ :: mapWhens f ws

def Call.mapTexts (f : String → String) : Call → Call
  | ⟨name, args, distinct, star, orderBy, withinGroup, filter, window⟩ =>
    ⟨name.map f, mapArgs f args, distinct, star, mapSort f orderBy, mapSort f withinGroup,
      mapOption f filter, mapWindow f window⟩

def mapArgs (f : String → String) : List Arg → List Arg
  | [] => []
  | .positional e :: r => .positional (e.mapTexts f) :: mapArgs f r
  | .named name sign e :: r => .named (f name) (f sign) (e.mapTexts f) :: mapArgs f r

def mapWindow (f : String → String) : Option Window → Option Window
  | none => none
  | some ⟨partitionBy, orderBy, frame⟩ =>
    some ⟨mapExprs f partitionBy, mapSort f orderBy, frame.map f⟩

def mapSort (f : String → String) : List SortItem → List SortItem
  | [] => []
  | ⟨e, direction, nulls⟩ :: r => ⟨e.mapTexts f, direction, nulls⟩ :: mapSort f r

/-- A query with its texts changed. -/
def Query.mapTexts (f : String → String) : Query → Query
  | ⟨withClause, body, orderBy, limit, offset, locking⟩ =>
    ⟨mapWith f withClause, body.mapTexts f, mapSort f orderBy, mapOption f limit, mapOption f offset,
      locking.map (Locking.mapTexts f)⟩

def mapWith (f : String → String) : Option With → Option With
  | none => none
  | some ⟨isRecursive, ctes⟩ => some ⟨isRecursive, mapCtes f ctes⟩

def mapCtes (f : String → String) : List Cte → List Cte
  | [] => []
  | ⟨name, materialized, q⟩ :: r => ⟨f name, materialized.map f, q.mapTexts f⟩ :: mapCtes f r

def Body.mapTexts (f : String → String) : Body → Body
  | .select x => .select (x.mapTexts f)
  | .setOp op all l r => .setOp op all (l.mapTexts f) (r.mapTexts f)
  | .values rows => .values (mapRows f rows)
  | .query q => .query (q.mapTexts f)

def mapRows (f : String → String) : List (List Expr) → List (List Expr)
  | [] => []
  | es :: r => mapExprs f es :: mapRows f r

def Select.mapTexts (f : String → String) : Select → Select
  | ⟨distinct, targets, source, condition, groupBy, having⟩ =>
    ⟨mapDistinct f distinct, mapTargets f targets, mapFrom f source, mapOption f condition,
      mapExprs f groupBy, mapOption f having⟩

def mapDistinct (f : String → String) : Option Distinct → Option Distinct
  | none => none
  | some .rows => some .rows
  | some (.on es) => some (.on (mapExprs f es))

def mapTargets (f : String → String) : List Target → List Target
  | [] => []
  | ⟨e, name⟩ :: r => ⟨e.mapTexts f, name.map f⟩ :: mapTargets f r

def mapFrom (f : String → String) : List FromItem → List FromItem
  | [] => []
  | x :: r => x.mapTexts f :: mapFrom f r

def FromItem.mapTexts (f : String → String) : FromItem → FromItem
  | .table t => .table (t.mapTexts f)
  | .function isLateral call name => .function isLateral (call.mapTexts f) (name.map f)
  | .subquery isLateral q name => .subquery isLateral (q.mapTexts f) (name.map f)
  | .join kind natural l r condition =>
    .join kind natural (l.mapTexts f) (r.mapTexts f) (condition.mapTexts f)
  | .verbatim t => .verbatim (f t)

def JoinCondition.mapTexts (f : String → String) : JoinCondition → JoinCondition
  | .on e => .on (e.mapTexts f)
  | .byColumns cs => .byColumns (cs.map f)
  | .none => .none

end

def Assignment.mapTexts (f : String → String) (x : Assignment) : Assignment :=
  ⟨f x.target, x.value.mapTexts f⟩

def InsertSource.mapTexts (f : String → String) : InsertSource → InsertSource
  | .values rows => .values (mapRows f rows)
  | .query q => .query (q.mapTexts f)
  | .defaultValues => .defaultValues

def ConflictTarget.mapTexts (f : String → String) : ConflictTarget → ConflictTarget
  | .columns cs => .columns (cs.map f)
  | .onConstraint n => .onConstraint (f n)

def ConflictAction.mapTexts (f : String → String) : ConflictAction → ConflictAction
  | .nothing => .nothing
  | .update as condition => .update (as.map (Assignment.mapTexts f)) (mapOption f condition)

def OnConflict.mapTexts (f : String → String) (c : OnConflict) : OnConflict :=
  ⟨c.target.map (ConflictTarget.mapTexts f), c.action.mapTexts f⟩

def Insert.mapTexts (f : String → String) (i : Insert) : Insert :=
  ⟨f i.table, i.aliasName.map f, i.columns.map f, i.source.mapTexts f,
    i.onConflict.map (OnConflict.mapTexts f), mapTargets f i.returning⟩

def Update.mapTexts (f : String → String) (u : Update) : Update :=
  ⟨u.table.mapTexts f, u.assignments.map (Assignment.mapTexts f), mapOption f u.condition,
    mapTargets f u.returning⟩

def Delete.mapTexts (f : String → String) (d : Delete) : Delete :=
  ⟨d.table.mapTexts f, mapOption f d.condition, mapTargets f d.returning⟩

/-- A statement with its texts changed. -/
def Statement.mapTexts (f : String → String) : Statement → Statement
  | .select q => .select (q.mapTexts f)
  | .insert i => .insert (i.mapTexts f)
  | .update u => .update (u.mapTexts f)
  | .delete d => .delete (d.mapTexts f)

/-! ### Laying out a tree with changed texts -/

/-- Keywords have no markers in them. -/
def Node.KeepsWord : Node → Prop
  | .expr (.keyword word) => ¬ Placeholder.paramMarker.toList <:+: word.toList
  | _ => True

theorem columnPieces_restored (fields : List String) (wildcard : Bool) :
    columnPieces (fields.map restore) wildcard = restoredPieces (columnPieces fields wildcard) := by
  cases fields with
  | nil => rfl
  | cons w ws => cases wildcard <;> simp [columnPieces]

theorem param_restored (n : Nat) : restore ("$" ++ toString n) = "$" ++ toString n := by
  have hrepr : toString n = String.ofList (Nat.toDigits 10 n) := Nat.repr_eq_ofList_toDigits
  have hmarker : ∀ c ∈ Placeholder.paramMarker.toList, c ≠ '$' ∧ c.isDigit = false := by decide
  refine Placeholder.restore_outside fun c hc hmem => ?_
  obtain ⟨hdollar, hdigit⟩ := hmarker c hmem
  have hcases : c = '$' ∨ c ∈ Nat.toDigits 10 n := by simpa [hrepr] using hc
  refine hcases.elim hdollar fun hc => ?_
  rw [Nat.isDigit_of_mem_toDigits (by decide) (by decide) hc] at hdigit
  cases hdigit

theorem aliasPieces_restored (name : Option String) :
    aliasPieces (name.map restore) = restoredPieces (aliasPieces name) := by
  cases name <;> rfl

theorem functionName_restored (s : Style) (name : List String) :
    functionName s (name.map restore) = restoredPieces (functionName s name) := by
  unfold functionName
  rw [List.getLast?_map]
  cases name.getLast? with
  | none => rfl
  | some last => simp [casedName_restored, List.map_dropLast]

theorem tableName_restored (t : TableName) : (t.mapTexts restore).pieces = restoredPieces t.pieces := by
  obtain ⟨schema, name, aliasName⟩ := t
  cases schema <;> simp [TableName.mapTexts, TableName.pieces, aliasPieces_restored]

theorem locking_restored (l : Locking) : (l.mapTexts restore).pieces = restoredPieces l.pieces := by
  obtain ⟨strength, of, waiting⟩ := l
  cases of <;> cases waiting <;> rfl

theorem lockings_restored (ls : List Locking) (d : Nat) :
    ((ls.map (Locking.mapTexts restore)).map fun l => newline d ++ l.pieces).flatten =
      restoredPieces ((ls.map fun l => newline d ++ l.pieces).flatten) := by
  induction ls with
  | nil => rfl
  | cons l r ih =>
    rw [List.map_cons, List.map_cons, List.flatten_cons, ih, locking_restored]
    simp

theorem sortClause_restored (lead closing : String) :
    sortClause lead [.mark ", "] (pss.map restoredPieces) closing =
      restoredPieces (sortClause lead [.mark ", "] pss closing) := by
  cases pss with
  | nil => rfl
  | cons ps pss => simp [sortClause]

mutual

theorem expr_restored : (e : Expr) → (d : Nat) → (isOperand : Bool) → (∀ n ∈ e.nodes, n.KeepsWord) →
    (e.mapTexts restore).pieces s d isOperand = restoredPieces (e.pieces s d isOperand)
  | .column fields wildcard, _, _, _ => columnPieces_restored fields wildcard
  | .keyword w, _, _, h => by
    simp only [Expr.nodes, List.forall_mem_singleton] at h
    simp [Expr.mapTexts, Expr.pieces, keyword_restored h]
  | .const c, _, _, _ => by simp [Expr.mapTexts, Expr.pieces, text_restored]
  | .param n, _, _, _ => congrArg (fun t => [Piece.leaf t]) (param_restored n).symm
  | .call c, d, _, h => call_restored c d h
  | .operation q op l r escape, d, _, h => by
    simp only [Expr.nodes, List.forall_mem_cons, List.forall_mem_append] at h
    obtain ⟨-, ⟨hl, hr⟩, hescape⟩ := h
    simp [Expr.mapTexts, Expr.pieces, expr_restored l d false hl, expr_restored r d false hr,
      operatorText_restored, option_restored [.mark " ESCAPE "] escape d rfl hescape]
  | .logic .not args, d, _, h => by
    simp only [Expr.nodes, List.forall_mem_cons] at h
    simp [Expr.mapTexts, Expr.pieces, first_restored args d h.2]
  | .logic .and args, d, isOperand, h => by
    simp only [Expr.nodes, List.forall_mem_cons] at h
    simp [Expr.mapTexts, Expr.pieces, chain_restored .and args _ h.2]
  | .logic .or args, d, isOperand, h => by
    simp only [Expr.nodes, List.forall_mem_cons] at h
    simp [Expr.mapTexts, Expr.pieces, chain_restored .or args _ h.2]
  | .nullTest e t, d, _, h => by
    simp only [Expr.nodes, List.forall_mem_cons] at h
    simp [Expr.mapTexts, Expr.pieces, expr_restored e d false h.2]
  | .truthTest e t, d, _, h => by
    simp only [Expr.nodes, List.forall_mem_cons] at h
    simp [Expr.mapTexts, Expr.pieces, expr_restored e d false h.2]
  | .cast e typeName bounds, d, _, h => by
    simp only [Expr.nodes, List.forall_mem_cons] at h
    simp [Expr.mapTexts, Expr.pieces, expr_restored e d false h.2]
  | .caseOf arg whens default, d, _, h => by
    simp only [Expr.nodes, List.forall_mem_cons, List.forall_mem_append] at h
    obtain ⟨-, ⟨harg, hwhens⟩, hdefault⟩ := h
    simp [Expr.mapTexts, Expr.pieces, option_restored [.mark " "] arg d rfl harg,
      whens_restored whens d hwhens, option_restored [.mark " ELSE "] default d rfl hdefault]
  | .coalesce args, d, _, h => by
    simp only [Expr.nodes, List.forall_mem_cons] at h
    simp [Expr.mapTexts, Expr.pieces, exprs_restored args d h.2]
  | .link kind test op negated q, d, _, h => by
    simp only [Expr.nodes, List.forall_mem_cons, List.forall_mem_append] at h
    obtain ⟨-, htest, hq⟩ := h
    simp [Expr.mapTexts, Expr.pieces, test_restored test op d htest, query_restored q (d + 1) hq]
  | .inList e list negated, d, _, h => by
    simp only [Expr.nodes, List.forall_mem_cons, List.forall_mem_append] at h
    obtain ⟨-, he, hlist⟩ := h
    simp [Expr.mapTexts, Expr.pieces, expr_restored e d false he, exprs_restored list d hlist]
  | .between e low high negated, d, _, h => by
    simp only [Expr.nodes, List.forall_mem_cons, List.forall_mem_append] at h
    obtain ⟨-, ⟨he, hlow⟩, hhigh⟩ := h
    simp [Expr.mapTexts, Expr.pieces, expr_restored e d false he, expr_restored low d false hlow,
      expr_restored high d false hhigh]
  | .array es, d, _, h => by
    simp only [Expr.nodes, List.forall_mem_cons] at h
    simp [Expr.mapTexts, Expr.pieces, exprs_restored es d h.2]
  | .unary op e, d, _, h => by
    simp only [Expr.nodes, List.forall_mem_cons] at h
    simp [Expr.mapTexts, Expr.pieces, expr_restored e d false h.2, startsWithSign_restored]
  | .nested e, d, _, h => by
    simp only [Expr.nodes, List.forall_mem_cons] at h
    simp [Expr.mapTexts, Expr.pieces, expr_restored e d false h.2]
  | .verbatim _, _, _, _ => rfl

theorem first_restored : (args : List Expr) → (d : Nat) → (∀ n ∈ exprNodes args, n.KeepsWord) →
    firstOperand s d (mapExprs restore args) = restoredPieces (firstOperand s d args)
  | [], _, _ => rfl
  | e :: r, d, h => by
    simp only [exprNodes, List.forall_mem_append] at h
    exact expr_restored e d true h.1

theorem chain_restored (c : Connective) : (args : List Expr) → (d : Nat) →
    (∀ n ∈ exprNodes args, n.KeepsWord) →
    chainPieces s d c (mapExprs restore args) = restoredPieces (chainPieces s d c args)
  | [], _, _ => rfl
  | e :: r, d, h => by
    simp only [exprNodes, List.forall_mem_append] at h
    simp [mapExprs, chainPieces, expr_restored e d true h.1, chainRest_restored c r d h.2]

theorem chainRest_restored (c : Connective) : (args : List Expr) → (d : Nat) →
    (∀ n ∈ exprNodes args, n.KeepsWord) →
    chainRest s d c (mapExprs restore args) = restoredPieces (chainRest s d c args)
  | [], _, _ => rfl
  | e :: r, d, h => by
    simp only [exprNodes, List.forall_mem_append] at h
    simp [mapExprs, chainRest, expr_restored e (d + 1) true h.1, chainRest_restored c r d h.2]

theorem exprs_restored : (es : List Expr) → (d : Nat) → (∀ n ∈ exprNodes es, n.KeepsWord) →
    exprPieces s d (mapExprs restore es) = (exprPieces s d es).map restoredPieces
  | [], _, _ => rfl
  | e :: r, d, h => by
    simp only [exprNodes, List.forall_mem_append] at h
    simp [mapExprs, exprPieces, expr_restored e d false h.1, exprs_restored r d h.2]

theorem option_restored (lead : List Piece) : (e : Option Expr) → (d : Nat) →
    restoredPieces lead = lead → (∀ n ∈ optionNodes e, n.KeepsWord) →
    optionPieces s d lead (mapOption restore e) = restoredPieces (optionPieces s d lead e)
  | none, _, _, _ => rfl
  | some e, d, hlead, h => by
    simp [mapOption, optionPieces, hlead, expr_restored e d false h]

theorem test_restored : (test : Option Expr) → (op : Option String) → (d : Nat) →
    (∀ n ∈ optionNodes test, n.KeepsWord) →
    testPieces s d (op.map restore) (mapOption restore test) = restoredPieces (testPieces s d op test)
  | none, _, _, _ => rfl
  | some e, op, d, h => by
    cases op <;> simp [mapOption, testPieces, expr_restored e d false h]

theorem whens_restored : (ws : List When) → (d : Nat) → (∀ n ∈ whenNodes ws, n.KeepsWord) →
    whenPieces s d (mapWhens restore ws) = restoredPieces (whenPieces s d ws)
  | [], _, _ => rfl
  | ⟨c, r⟩ :: ws, d, h => by
    simp only [whenNodes, List.forall_mem_append] at h
    obtain ⟨⟨hc, hr⟩, hws⟩ := h
    simp [mapWhens, whenPieces, expr_restored c d false hc, expr_restored r d false hr,
      whens_restored ws d hws]

theorem call_restored : (c : Call) → (d : Nat) → (∀ n ∈ c.nodes, n.KeepsWord) →
    (c.mapTexts restore).pieces s d = restoredPieces (c.pieces s d)
  | ⟨name, args, distinct, star, orderBy, withinGroup, filter, window⟩, d, h => by
    simp only [Call.nodes, List.forall_mem_cons, List.forall_mem_append] at h
    obtain ⟨-, ⟨⟨⟨hargs, horder⟩, hwithin⟩, hfilter⟩, hwindow⟩ := h
    simp [Call.mapTexts, Call.pieces, functionName_restored, args_restored args d hargs,
      sort_restored orderBy d horder, sort_restored withinGroup d hwithin, sortClause_restored,
      filter_restored filter d hfilter, window_restored window d hwindow]

theorem filter_restored : (filter : Option Expr) → (d : Nat) →
    (∀ n ∈ optionNodes filter, n.KeepsWord) →
    filterPieces s d (mapOption restore filter) = restoredPieces (filterPieces s d filter)
  | none, _, _ => rfl
  | some e, d, h => by simp [mapOption, filterPieces, expr_restored e d false h]

theorem args_restored : (args : List Arg) → (d : Nat) → (∀ n ∈ argNodes args, n.KeepsWord) →
    argPieces s d (mapArgs restore args) = (argPieces s d args).map restoredPieces
  | [], _, _ => rfl
  | .positional e :: r, d, h => by
    simp only [argNodes, List.forall_mem_append] at h
    simp [mapArgs, argPieces, expr_restored e d false h.1, args_restored r d h.2]
  | .named name sign e :: r, d, h => by
    simp only [argNodes, List.forall_mem_append] at h
    simp [mapArgs, argPieces, expr_restored e d false h.1, args_restored r d h.2]

theorem sort_restored : (items : List SortItem) → (d : Nat) →
    (∀ n ∈ sortNodes items, n.KeepsWord) →
    sortPieces s d (mapSort restore items) = (sortPieces s d items).map restoredPieces
  | [], _, _ => rfl
  | ⟨e, direction, nulls⟩ :: r, d, h => by
    simp only [sortNodes, List.forall_mem_append] at h
    cases nulls <;>
      simp [mapSort, sortPieces, expr_restored e d false h.1, sort_restored r d h.2]

theorem window_restored : (w : Option Window) → (d : Nat) → (∀ n ∈ windowNodes w, n.KeepsWord) →
    windowPieces s d (mapWindow restore w) = restoredPieces (windowPieces s d w)
  | none, _, _ => rfl
  | some ⟨partitionBy, orderBy, frame⟩, d, h => by
    simp only [windowNodes, List.forall_mem_append] at h
    simp only [mapWindow, windowPieces, Window.pieces, exprs_restored partitionBy d h.1,
      sort_restored orderBy d h.2, restoredPieces_append, restoredPieces_sepBy_mark, List.map_append,
      List.isEmpty_map]
    cases frame <;> cases exprPieces s d partitionBy <;> cases sortPieces s d orderBy <;> simp

theorem query_restored : (q : Query) → (d : Nat) → (∀ n ∈ q.nodes, n.KeepsWord) →
    (q.mapTexts restore).pieces s d = restoredPieces (q.pieces s d)
  | ⟨withClause, body, orderBy, limit, offset, locking⟩, d, h => by
    simp only [Query.nodes, List.forall_mem_append] at h
    obtain ⟨⟨⟨⟨hwith, hbody⟩, horder⟩, hlimit⟩, hoffset⟩ := h
    have hcomma : restoredPieces (.mark "," :: newline (d + 1)) = .mark "," :: newline (d + 1) := rfl
    have hlead (w : String) : restoredPieces (newline d ++ [.mark w]) = newline d ++ [.mark w] := rfl
    simp only [Query.mapTexts, Query.pieces, with_restored withClause d hwith,
      body_restored body d hbody, sort_restored orderBy d horder, option_restored _ limit d (hlead _) hlimit,
      option_restored _ offset d (hlead _) hoffset, lockings_restored, List.isEmpty_map,
      restoredPieces_isEmpty, restoredPieces_ite, restoredPieces_append, restoredPieces_sepBy, hcomma,
      hlead]
    rfl

theorem with_restored : (w : Option With) → (d : Nat) → (∀ n ∈ withNodes w, n.KeepsWord) →
    withPieces s d (mapWith restore w) = restoredPieces (withPieces s d w)
  | none, _, _ => rfl
  | some ⟨isRecursive, ctes⟩, d, h => by
    simp [mapWith, withPieces, With.pieces, ctes_restored ctes d h]

theorem ctes_restored : (cs : List Cte) → (d : Nat) → (∀ n ∈ cteNodes cs, n.KeepsWord) →
    ctePieces s d (mapCtes restore cs) = (ctePieces s d cs).map restoredPieces
  | [], _, _ => rfl
  | ⟨name, materialized, q⟩ :: r, d, h => by
    simp only [cteNodes, List.forall_mem_append] at h
    cases materialized <;>
      simp [mapCtes, ctePieces, query_restored q (d + 1) h.1, ctes_restored r d h.2]

theorem body_restored : (b : Body) → (d : Nat) → (∀ n ∈ b.nodes, n.KeepsWord) →
    (b.mapTexts restore).pieces s d = restoredPieces (b.pieces s d)
  | .select x, d, h => select_restored x d h
  | .setOp op all l r, d, h => by
    simp only [Body.nodes, List.forall_mem_append] at h
    simp [Body.mapTexts, Body.pieces, body_restored l d h.1, body_restored r d h.2]
  | .values rows, d, h => by simp [Body.mapTexts, Body.pieces, rows_restored rows d h]
  | .query q, d, h => by simp [Body.mapTexts, Body.pieces, query_restored q (d + 1) h]

theorem rows_restored : (rows : List (List Expr)) → (d : Nat) →
    (∀ n ∈ rowNodes rows, n.KeepsWord) →
    rowPieces s d (mapRows restore rows) = (rowPieces s d rows).map restoredPieces
  | [], _, _ => rfl
  | es :: r, d, h => by
    simp only [rowNodes, List.forall_mem_append] at h
    simp [mapRows, rowPieces, exprs_restored es (d + 1) h.1, rows_restored r d h.2,
      Function.comp_def]

theorem select_restored : (x : Select) → (d : Nat) → (∀ n ∈ x.nodes, n.KeepsWord) →
    (x.mapTexts restore).pieces s d = restoredPieces (x.pieces s d)
  | ⟨distinct, targets, source, condition, groupBy, having⟩, d, h => by
    simp only [Select.nodes, List.forall_mem_cons, List.forall_mem_append] at h
    obtain ⟨-, ⟨⟨⟨⟨hdistinct, htargets⟩, hsource⟩, hcondition⟩, hgroups⟩, hhaving⟩ := h
    have hlead (w : String) : restoredPieces (newline d ++ [.mark w]) = newline d ++ [.mark w] := rfl
    have hlines : ((targetPieces s (d + 1) targets).map restoredPieces).map (newline (d + 1) ++ ·) =
        ((targetPieces s (d + 1) targets).map (newline (d + 1) ++ ·)).map restoredPieces := by
      simp [Function.comp_def]
    simp only [Select.mapTexts, Select.pieces, distinct_restored distinct d hdistinct,
      targets_restored targets (d + 1) htargets, from_restored source d hsource,
      option_restored _ condition d (hlead _) hcondition, exprs_restored groupBy d hgroups,
      option_restored _ having d (hlead _) hhaving, hlines, List.isEmpty_map, restoredPieces_ite,
      restoredPieces_append, restoredPieces_sepBy_mark, hlead]
    rfl

theorem distinct_restored : (x : Option Distinct) → (d : Nat) →
    (∀ n ∈ distinctNodes x, n.KeepsWord) →
    distinctPieces s d (mapDistinct restore x) = restoredPieces (distinctPieces s d x)
  | none, _, _ => rfl
  | some .rows, _, _ => rfl
  | some (.on es), d, h => by
    simp [mapDistinct, distinctPieces, Distinct.pieces, exprs_restored es d h]

theorem targets_restored : (ts : List Target) → (d : Nat) → (∀ n ∈ targetNodes ts, n.KeepsWord) →
    targetPieces s d (mapTargets restore ts) = (targetPieces s d ts).map restoredPieces
  | [], _, _ => rfl
  | ⟨e, name⟩ :: r, d, h => by
    simp only [targetNodes, List.forall_mem_append] at h
    cases name <;>
      simp [mapTargets, targetPieces, expr_restored e d false h.1, targets_restored r d h.2]

theorem from_restored : (fs : List FromItem) → (d : Nat) → (∀ n ∈ fromNodes fs, n.KeepsWord) →
    fromPieces s d (mapFrom restore fs) = (fromPieces s d fs).map restoredPieces
  | [], _, _ => rfl
  | f :: r, d, h => by
    simp only [fromNodes, List.forall_mem_append] at h
    simp [mapFrom, fromPieces, fromItem_restored f d h.1, from_restored r d h.2]

theorem fromItem_restored : (f : FromItem) → (d : Nat) → (∀ n ∈ f.nodes, n.KeepsWord) →
    (f.mapTexts restore).pieces s d = restoredPieces (f.pieces s d)
  | .table t, _, _ => tableName_restored t
  | .function isLateral call name, d, h => by
    simp [FromItem.mapTexts, FromItem.pieces, aliasPieces_restored, call_restored call d h]
  | .subquery isLateral q name, d, h => by
    simp [FromItem.mapTexts, FromItem.pieces, aliasPieces_restored, query_restored q (d + 1) h]
  | .join kind natural l r condition, d, h => by
    simp only [FromItem.nodes, List.forall_mem_append] at h
    obtain ⟨⟨hl, hr⟩, hcondition⟩ := h
    simp [FromItem.mapTexts, FromItem.pieces, fromItem_restored l d hl, fromItem_restored r _ hr,
      joinCondition_restored condition _ hcondition]
  | .verbatim _, _, _ => rfl

theorem joinCondition_restored : (c : JoinCondition) → (d : Nat) → (∀ n ∈ c.nodes, n.KeepsWord) →
    (c.mapTexts restore).pieces s d = restoredPieces (c.pieces s d)
  | .on e, d, h => by
    simp [JoinCondition.mapTexts, JoinCondition.pieces, expr_restored e _ false h]
  | .byColumns cs, _, _ => by simp [JoinCondition.mapTexts, JoinCondition.pieces]
  | .none, _, _ => rfl

end

theorem where_restored (condition : Option Expr) (h : ∀ n ∈ optionNodes condition, n.KeepsWord) :
    wherePieces s (mapOption restore condition) = restoredPieces (wherePieces s condition) :=
  option_restored _ condition 0 rfl h

theorem returning_restored (ts : List Target) (h : ∀ n ∈ targetNodes ts, n.KeepsWord) :
    returningPieces s (mapTargets restore ts) = restoredPieces (returningPieces s ts) := by
  cases ts with
  | nil => rfl
  | cons t r =>
    obtain ⟨e, name⟩ := t
    simp only [returningPieces, targets_restored _ 0 h, restoredPieces_ite, restoredPieces_append,
      restoredPieces_sepBy_mark]
    rfl

theorem assignments_restored (as : List Assignment) (h : ∀ n ∈ assignmentNodes as, n.KeepsWord) :
    assignmentPieces s (as.map (Assignment.mapTexts restore)) = restoredPieces (assignmentPieces s as) := by
  have hvalue : ∀ x ∈ as, (x.value.mapTexts restore).pieces s 1 false =
      restoredPieces (x.value.pieces s 1 false) := fun x hx =>
    expr_restored x.value 1 false fun n hn => h n (exprNodes_subset (List.mem_map_of_mem hx) hn)
  simp only [assignmentPieces, restoredPieces_sepBy_mark, List.map_map]
  congr 1
  refine List.map_congr_left fun x hx => ?_
  simp [Assignment.mapTexts, hvalue x hx]

theorem conflictTarget_restored (t : ConflictTarget) :
    (t.mapTexts restore).pieces = restoredPieces t.pieces := by
  cases t with
  | columns cs => simp [ConflictTarget.mapTexts, ConflictTarget.pieces]
  | onConstraint n => rfl

theorem onConflict_restored (c : OnConflict) (h : ∀ n ∈ c.nodes, n.KeepsWord) :
    (c.mapTexts restore).pieces s = restoredPieces (c.pieces s) := by
  obtain ⟨target, action⟩ := c
  have haction : (action.mapTexts restore).pieces s = restoredPieces (action.pieces s) := by
    cases action with
    | nothing => rfl
    | update as condition =>
      simp only [OnConflict.nodes, List.forall_mem_append] at h
      simp [ConflictAction.mapTexts, ConflictAction.pieces, assignments_restored as h.1,
        where_restored condition h.2]
  cases target <;> simp [OnConflict.mapTexts, OnConflict.pieces, haction, conflictTarget_restored]

theorem insertSource_restored (x : InsertSource) (h : ∀ n ∈ x.nodes, n.KeepsWord) :
    (x.mapTexts restore).pieces s = restoredPieces (x.pieces s) := by
  cases x with
  | values rows => simp [InsertSource.mapTexts, InsertSource.pieces, rows_restored rows 0 h]
  | query q => exact query_restored q 0 h
  | defaultValues => rfl

theorem insert_restored (i : Insert) (h : ∀ n ∈ i.nodes, n.KeepsWord) :
    (i.mapTexts restore).pieces s = restoredPieces (i.pieces s) := by
  obtain ⟨table, aliasName, columns, source, onConflict, returning⟩ := i
  simp only [Insert.nodes, List.forall_mem_append] at h
  obtain ⟨⟨hsource, hconflict⟩, hreturning⟩ := h
  have hcolumns : (columns.map restore).map (fun c => newline 1 ++ [.leaf c]) =
      (columns.map fun c => newline 1 ++ [.leaf c]).map restoredPieces := by
    simp [Function.comp_def]
  simp only [Insert.mapTexts, Insert.pieces, hcolumns, insertSource_restored source hsource,
    returning_restored returning hreturning, restoredPieces_append, restoredPieces_ite,
    restoredPieces_sepBy_mark, List.isEmpty_map]
  congr 4
  · cases aliasName <;> rfl
  · cases onConflict with
    | none => rfl
    | some c => exact onConflict_restored c hconflict

theorem update_restored (u : Update) (h : ∀ n ∈ u.nodes, n.KeepsWord) :
    (u.mapTexts restore).pieces s = restoredPieces (u.pieces s) := by
  simp only [Update.nodes, List.forall_mem_append] at h
  obtain ⟨⟨hassignments, hcondition⟩, hreturning⟩ := h
  simp [Update.mapTexts, Update.pieces, tableName_restored, assignments_restored _ hassignments,
    where_restored _ hcondition, returning_restored _ hreturning]

theorem delete_restored (x : Delete) (h : ∀ n ∈ x.nodes, n.KeepsWord) :
    (x.mapTexts restore).pieces s = restoredPieces (x.pieces s) := by
  simp only [Delete.nodes, List.forall_mem_append] at h
  simp [Delete.mapTexts, Delete.pieces, tableName_restored, where_restored _ h.1,
    returning_restored _ h.2]

theorem statement_restored (s : Style) (t : Statement) (h : ∀ n ∈ t.nodes, n.KeepsWord) :
    (t.mapTexts restore).pieces s = restoredPieces (t.pieces s) := by
  cases t with
  | select q => exact query_restored q 0 h
  | insert i => exact insert_restored i h
  | update u => exact update_restored u h
  | delete x => exact delete_restored x h

/-! ### Restoring a laid-out text -/

/-- The prefix operators that are signs. -/
def IsSign (op : String) : Prop :=
  op = "-" ∨ op = "+"

theorem marks_outside : ∀ m ∈ marks, m.toList ≠ [] ∧ ∀ c ∈ m.toList, c ∉ Placeholder.paramMarker.toList := by
  decide +kernel

theorem indentBy_outside (s : Style) (d : Nat) : Placeholder.Outside (s.indentBy d).toList := by
  have hunit : ∀ c ∈ s.indent.text.toList, c ∉ Placeholder.paramMarker.toList := by
    cases s.indent <;> decide
  unfold Style.indentBy
  induction d with
  | zero => simp [Placeholder.Outside, Text.replicate]
  | succ d ih =>
    simp only [Placeholder.Outside, Text.replicate, String.toList_append, List.forall_mem_append]
    exact ⟨hunit, ih⟩

/-- By induction on the pieces; `cs` is the text before them. -/
theorem Laid.restored_textOf {a b : Edge} (h : Laid s IsSign a b ps) (cs : List Char)
    (hcs : a = .fenced → Placeholder.Closed cs) :
    restored (cs ++ (Piece.textOf s ps).toList) =
      restored cs ++ (Piece.textOf s (restoredPieces ps)).toList := by
  induction h generalizing cs with
  | nil | loose => simp
  | mark hm _ ih =>
    obtain ⟨hne, houtside⟩ := marks_outside _ (List.mem_of_mem_erase hm)
    have hnext := ih _ fun _ => Placeholder.closed_append_outside cs houtside hne
    simpa [Piece.text, Placeholder.restored_append_outside cs houtside] using hnext
  | star _ ih =>
    have houtside : Placeholder.Outside ['*'] := by decide
    have hnext := ih _ fun _ => Placeholder.closed_append_outside cs houtside (List.cons_ne_nil _ [])
    simpa [Piece.text, Placeholder.restored_append_outside cs houtside] using hnext
  | empty _ ih => simpa [Piece.text] using ih cs hcs
  | lineBreak _ ih =>
    have houtside : Placeholder.Outside ['\n'] := by decide
    have hnext := ih _ fun _ => Placeholder.closed_append_outside cs houtside (List.cons_ne_nil _ [])
    simpa [Piece.text, Placeholder.restored_append_outside cs houtside] using hnext
  | indent d _ ih =>
    have houtside := indentBy_outside s d
    have hnext := ih _ fun ha => (hcs ha).append_outside houtside
    simpa [Piece.text, Placeholder.restored_append_outside cs houtside] using hnext
  | leaf t _ ih =>
    have hnext := ih (cs ++ t.toList) (by rintro ⟨⟩)
    simpa [Piece.text, (hcs rfl).restored_append, Placeholder.restore_toList] using hnext
  | @sign b op arg ps hop _ _ _ iharg ih =>
    have houtside : op.toList ≠ [] ∧ Placeholder.Outside op.toList := by
      rcases hop with rfl | rfl <;> decide
    have harg := iharg _ fun _ => Placeholder.closed_append_outside cs houtside.2 houtside.1
    have hnext := ih (cs ++ op.toList ++ (Piece.textOf s arg).toList) (by rintro ⟨⟩)
    rw [harg] at hnext
    simpa [Piece.text, Placeholder.restored_append_outside cs houtside.2,
      Placeholder.restore_outside houtside.2] using hnext

/-- What lowering ensures of a node: keywords have no markers in them, and prefix operators are signs. -/
def Node.IsLowered : Node → Prop
  | .expr (.keyword word) => ¬ Placeholder.paramMarker.toList <:+: word.toList
  | .expr (.unary op _) => IsSign op
  | _ => True

/-- Restoring the placeholders of a text is laying out the tree with its placeholders restored. -/
theorem restore_render (s : Style) (t : Statement) (h : ∀ n ∈ t.nodes, n.IsLowered) :
    restore (t.render s) = (t.mapTexts restore).render s := by
  have hlaid : Laid s IsSign .fenced .bare (t.pieces s) := by
    refine statement_laid s t fun n hn => ?_
    have hlowered := h n hn
    unfold Node.Prefixed
    split
    · exact hlowered
    · trivial
  have hwords : ∀ n ∈ t.nodes, n.KeepsWord := by
    intro n hn
    have hlowered := h n hn
    unfold Node.KeepsWord
    split
    · exact hlowered
    · trivial
  have htext := hlaid.restored_textOf [] fun _ => by simp [Placeholder.Closed]
  rw [← String.toList_inj, Placeholder.restore_toList, Statement.render, Statement.render,
    statement_restored s t hwords]
  exact htext

/-- `insert into t values (upper(ttpre_a), 'it''s ttpre_b')`. -/
theorem restore_render_insert :
    let call : Expr := .call ⟨["upper"], [.positional (.column ["ttpre_a"] false)], false, false, [], [],
      none, none⟩
    let t : Statement := .insert
      { table := "t", aliasName := none, columns := [], onConflict := none, returning := [],
        source := .values [[.unary "-" call, .const (.string "it's ttpre_b")]] }
    (∀ n ∈ t.nodes, n.IsLowered) ∧ restore (t.render {}) = (t.mapTexts restore).render {} := by
  intro call t
  have hlowered : ∀ n ∈ t.nodes, n.IsLowered := by
    simp [t, call, Statement.nodes, Insert.nodes, InsertSource.nodes, rowNodes, exprNodes, Expr.nodes,
      Call.nodes, argNodes, sortNodes, optionNodes, windowNodes, targetNodes, Node.IsLowered, IsSign]
  exact ⟨hlowered, restore_render {} t hlowered⟩

end SqlLayout.Layout
