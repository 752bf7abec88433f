import SqlLayout.Proofs.Emission
import SqlLayout.Proofs.Exchange
import Mathlib.Control.Basic

/-!
Groups over several lines. A group opens with a parenthesis at the end of a line and closes with one at
the start of another. A cursor goes over the pieces of a layout; it knows how deep its line is and on
which lines the groups around it have opened.
-/

namespace SqlLayout.Layout

open Piece (newline sepBy commas leaves)

/-! ### Lines -/

/-- A place in a line. -/
inductive Place
  /-- The line has nothing but its indentation. -/
  | start
  /-- The last character is an opening parenthesis that the layout writes. -/
  | opening
  | inner
  deriving DecidableEq

/-- A place in a layout: the depth of its line, and those of the lines on which the groups around it
have opened, the innermost first. -/
structure Cursor where
  place : Place
  line : Nat
  groups : List Nat

/-- The place at which a layout starts. -/
def Cursor.first : Cursor :=
  ⟨.start, 0, []⟩

def opens (m : String) : Bool :=
  m.toList.getLast? == some '('

def closes (m : String) : Bool :=
  m.toList.head? == some ')'

/-- The place after a piece. There is none after a parenthesis that closes a group on a line of another
depth, and after an indentation within a line. -/
def Cursor.step (c : Cursor) : Piece → Option Cursor
  | .leaf _ => some { c with place := .inner }
  | .lineBreak => some ⟨.start, 0, if c.place = .opening then c.line :: c.groups else c.groups⟩
  | .indent d => if c.place = .start ∨ d = 0 then some { c with line := d + c.line } else none
  | .mark m =>
    let place := if opens m then .opening else .inner
    if c.place = .start ∧ closes m then
      match c.groups with
      | [] => none
      | line :: groups => if line = c.line then some ⟨place, c.line, groups⟩ else none
    else some { c with place }

/-- The place after several pieces. -/
def Cursor.after (c : Cursor) (ps : List Piece) : Option Cursor :=
  ps.foldlM Cursor.step c

/-- Each group closes on a line as deep as the one that it opens on. -/
def LinesUp (ps : List Piece) : Prop :=
  ∃ c, Cursor.first.after ps = some c ∧ c.groups = []

instance : DecidablePred LinesUp := fun ps =>
  decidable_of_iff ((Cursor.first.after ps).map Cursor.groups = some []) Option.map_eq_some_iff

@[simp] theorem Cursor.after_nil (c : Cursor) : c.after [] = some c := rfl

theorem Cursor.after_cons (c : Cursor) (p : Piece) (ps : List Piece) :
    c.after (p :: ps) = (c.step p).bind (·.after ps) :=
  List.foldlM_cons

theorem Cursor.after_append (c : Cursor) (ps qs : List Piece) :
    c.after (ps ++ qs) = (c.after ps).bind (·.after qs) :=
  List.foldlM_append

/-! ### The text of a line -/

/-- The text before a place ends with the indentation of its line and the part of the line after that. -/
def Cursor.Stands (c : Cursor) (s : Style) (cs : List Char) : Prop :=
  ∃ lines rest, cs = lines ++ (s.indentBy c.line).toList ++ rest ∧
    (lines = [] ∨ lines.getLast? = some '\n') ∧ '\n' ∉ rest ∧ (c.place = .start → rest = [])

namespace Cursor.Stands

variable {s : Style} {c c' : Cursor} {cs : List Char} {p : Piece} {ps : List Piece}

theorem first (s : Style) : first.Stands s [] :=
  ⟨[], [], rfl, .inl rfl, nofun, fun _ => rfl⟩

/-- More text within the line. -/
theorem text {place : Place} {groups : List Nat} {t : String} (h : c.Stands s cs) (ht : '\n' ∉ t.toList)
    (hplace : place ≠ .start) : Cursor.Stands ⟨place, c.line, groups⟩ s (cs ++ t.toList) := by
  obtain ⟨lines, rest, rfl, hlines, hrest, -⟩ := h
  refine ⟨lines, rest ++ t.toList, by simp, hlines, ?_, fun hstart => absurd hstart hplace⟩
  exact List.not_mem_append hrest ht

theorem step (h : c.Stands s cs) (hmark : ∀ m, p = .mark m → '\n' ∉ m.toList)
    (hleaf : ∀ t, p = .leaf t → '\n' ∉ t.toList) (hstep : c.step p = some c') :
    c'.Stands s (cs ++ (p.text s).toList) := by
  cases p with
  | leaf t =>
    cases hstep
    exact h.text (hleaf t rfl) nofun
  | mark m =>
    have hplace : (if opens m then Place.opening else .inner) ≠ .start := by
      split <;> nofun
    simp only [Cursor.step] at hstep
    split at hstep
    · split at hstep
      · cases hstep
      · split at hstep
        · cases hstep
          exact h.text (hmark m rfl) hplace
        · cases hstep
    · cases hstep
      exact h.text (hmark m rfl) hplace
  | lineBreak =>
    cases hstep
    exact ⟨cs ++ ['\n'], [], by simp [Piece.text, Style.indentBy, Text.replicate], .inr (by simp), nofun,
      fun _ => rfl⟩
  | indent d =>
    simp only [Cursor.step] at hstep
    split at hstep
    · rename_i hindent
      cases hstep
      obtain ⟨lines, rest, rfl, hlines, hrest, hstart⟩ := h
      obtain hplace | rfl := hindent
      · refine ⟨lines, [], ?_, hlines, nofun, fun _ => rfl⟩
        simp [hstart hplace, Piece.text, toList_indentBy_add]
      · refine ⟨lines, rest, ?_, hlines, hrest, hstart⟩
        simp [Piece.text, Style.indentBy, Text.replicate]
    · cases hstep

theorem after (h : c.Stands s cs) (hmarks : ∀ m, .mark m ∈ ps → '\n' ∉ m.toList)
    (hleaves : ∀ t, .leaf t ∈ ps → '\n' ∉ t.toList) (hafter : c.after ps = some c') :
    c'.Stands s (cs ++ (Piece.textOf s ps).toList) := by
  induction ps generalizing c cs with
  | nil =>
    cases hafter
    simpa using h
  | cons p ps ih =>
    rw [Cursor.after_cons, Option.bind_eq_some_iff] at hafter
    obtain ⟨middle, hstep, hafter⟩ := hafter
    have hp := h.step (fun m hm => hmarks m (hm ▸ List.mem_cons_self))
      (fun t ht => hleaves t (ht ▸ List.mem_cons_self)) hstep
    have hps := ih hp (fun m hm => hmarks m (List.mem_cons_of_mem p hm))
      (fun t ht => hleaves t (List.mem_cons_of_mem p ht)) hafter
    simpa using hps

end Cursor.Stands

/-! ### The course of the lines -/

/-- How deep the line is on which a part of a layout ends, by the depth of the line on which it starts.
There is none if a group in the part does not close as it opens. -/
abbrev Course :=
  Nat → Option Nat

/-- Parts one after another. -/
def inTurn : List Course → Course
  | [] => some
  | f :: fs => f >=> inTurn fs

/-- Parts on lines of their own at the given depth. -/
def onLines (d : Nat) (fs : List Course) : Bool :=
  fs.all fun f => (f d).isSome

/-- A group that closes on a line at the given depth, where `closed` tells whether the groups in it
close as they open. -/
def group (d : Nat) (closed : Bool) : Course :=
  fun line => if line = d ∧ closed then some d else none

theorem kleisli_some (f : Course) : f >=> some = f :=
  fish_pure f

theorem inTurn_append (fs gs : List Course) : inTurn (fs ++ gs) = inTurn fs >=> inTurn gs := by
  induction fs with
  | nil => rfl
  | cons f fs ih => rw [List.cons_append, inTurn, inTurn, ih, fish_assoc]

/-- Pieces that take the given course. With `a` they do not start right after a parenthesis, and with `b`
they are not empty. -/
def Tracks (f : Course) (a b : Bool) (ps : List Piece) : Prop :=
  ∀ c : Cursor, (a = true → c.place ≠ .opening) →
    ∃ place, (place = .inner ∨ b = false ∧ place = c.place) ∧
      c.after ps = (f c.line).map fun line => ⟨place, line, c.groups⟩

/-- Pieces of which the last line has more than its indentation. -/
def TracksOpen (f : Course) (a : Bool) (ps : List Piece) : Prop :=
  ∀ c : Cursor, (a = true → c.place ≠ .opening) →
    ∃ place, place ≠ .start ∧ c.after ps = (f c.line).map fun line => ⟨place, line, c.groups⟩

/-- Such pieces, each with its course. -/
abbrev TracksEach : List Course → List (List Piece) → Prop :=
  List.Forall₂ fun f ps => Tracks f false false ps

/-- A fixed text without a parenthesis of a group. -/
def IsPlainMark (m : String) : Prop :=
  opens m = false ∧ closes m = false

instance : DecidablePred IsPlainMark :=
  fun _ => inferInstanceAs (Decidable (_ ∧ _))

/-- Pieces that fill lines. If they are `fresh` they start at the start of a line; `closed` tells whether
the groups in them close as they open. -/
def Fills (d : Nat) (fresh closed : Bool) (ps : List Piece) : Prop :=
  ∀ c : Cursor, c.place ≠ .opening → (fresh = true → c.line = 0 ∧ (c.place = .start ∨ d = 0)) →
    ∃ place line, place ≠ .opening ∧
      c.after ps = if closed then some ⟨place, line, c.groups⟩ else none

section

variable {f g : Course} {fs : List Course} {a b b' closed closed' fresh : Bool} {d j : Nat} {m m' : String}
  {ps qs ts : List Piece} {pss : List (List Piece)}

namespace Tracks

theorem nil : Tracks some a false [] :=
  fun c _ => ⟨c.place, .inr ⟨rfl, rfl⟩, rfl⟩

theorem tighten (h : Tracks f false b ps) : Tracks f a b ps :=
  fun c _ => h c nofun

theorem loosen (h : Tracks f a true ps) : Tracks f a b ps := by
  intro c hc
  obtain ⟨place, hplace, hafter⟩ := h c hc
  exact ⟨place, .inl (hplace.resolve_right fun hb => nomatch hb.1), hafter⟩

/-- One part after another, where the second may have to start after something. -/
theorem next {a' : Bool} (h : Tracks f a b ps) (h' : Tracks g a' b' qs)
    (hstart : a' = true → a = true ∨ b = true) : Tracks (f >=> g) a (b || b') (ps ++ qs) := by
  intro c hc
  obtain ⟨middle, hmiddle, hps⟩ := h c hc
  have hopening : a' = true → middle ≠ .opening := by
    intro ha'
    obtain rfl | ⟨hb, rfl⟩ := hmiddle
    · nofun
    · exact hc ((hstart ha').resolve_right (by simp [hb]))
  cases hline : f c.line with
  | none => exact ⟨.inner, .inl rfl, by simp [Cursor.after_append, hps, hline, Bind.kleisliRight]⟩
  | some line =>
    obtain ⟨place, hplace, hqs⟩ := h' ⟨middle, line, c.groups⟩ hopening
    refine ⟨place, ?_, ?_⟩
    · obtain rfl | ⟨hb', rfl⟩ := hplace
      · exact .inl rfl
      · exact hmiddle.imp_right fun hb => ⟨by simp [hb.1, hb'], hb.2⟩
    · simp [Cursor.after_append, hps, hline, hqs, Bind.kleisliRight]

theorem append (h : Tracks f a b ps) (h' : Tracks g a b' qs) : Tracks (f >=> g) a (b || b') (ps ++ qs) :=
  h.next h' .inl

/-- Pieces that change nothing about the line. -/
theorem after (h : Tracks f a b ps) (hts : Tracks some a b' ts) : Tracks f a (b || b') (ps ++ ts) :=
  kleisli_some f ▸ h.append hts

theorem before (hts : Tracks some a b ts) (h : Tracks f a b' ps) : Tracks f a (b || b') (ts ++ ps) :=
  hts.append h

theorem leaf (t : String) (h : Tracks f true b ps) : Tracks f a true (.leaf t :: ps) := by
  have hleaf : Tracks some a true [.leaf t] := fun _ _ => ⟨.inner, .inl rfl, rfl⟩
  exact hleaf.next h fun _ => .inr rfl

theorem mark (hm : IsPlainMark m) (h : Tracks f true b ps) : Tracks f a true (.mark m :: ps) := by
  have hmark : Tracks some a true [.mark m] := by
    intro c _
    refine ⟨.inner, .inl rfl, ?_⟩
    simp [Cursor.after_cons, Cursor.step, hm.1, hm.2]
  exact hmark.next h fun _ => .inr rfl

/-- Pieces on a new line. -/
theorem newline (d : Nat) (h : Tracks f a true ps) : Tracks (fun _ => f d) true true (newline d ++ ps) := by
  intro c hc
  obtain ⟨place, hplace, hafter⟩ := h ⟨.start, d, c.groups⟩ fun _ => nofun
  refine ⟨place, .inl (hplace.resolve_right fun hb => nomatch hb.1), ?_⟩
  simp [Cursor.after_cons, Cursor.step, Piece.newline, hc rfl, hafter]

/-- A group over several lines. -/
theorem group (hm : opens m ∧ closes m = false) (hm' : closes m' ∧ opens m' = false)
    (h : Fills j false closed ps) (hbreak : (ps ++ Piece.newline d).head? = some .lineBreak) :
    Tracks (Layout.group d closed) a true ([Piece.mark m] ++ ps ++ Piece.newline d ++ [Piece.mark m']) := by
  intro c _
  obtain ⟨r, hr⟩ := List.head?_eq_some_iff.1 hbreak
  obtain ⟨place, line, hplace, hafter⟩ := h ⟨.inner, c.line, c.line :: c.groups⟩ nofun nofun
  -- the line break after the parenthesis is all that tells a group from what else it may be
  have hopened : Cursor.after ⟨.opening, c.line, c.groups⟩ (ps ++ Piece.newline d) =
      Cursor.after ⟨.inner, c.line, c.line :: c.groups⟩ (ps ++ Piece.newline d) := by
    rw [hr, Cursor.after_cons, Cursor.after_cons]
    rfl
  refine ⟨.inner, .inl rfl, ?_⟩
  rw [List.append_assoc [Piece.mark m], Cursor.after_append, Cursor.after_append]
  simp only [Cursor.after_cons, Cursor.after_nil, Cursor.step, hm.1, hm.2, Bool.false_eq_true, and_false,
    if_false, if_true, Option.bind_some, hopened]
  rw [Cursor.after_append, hafter]
  cases closed with
  | false => simp [Layout.group]
  | true =>
    by_cases hline : c.line = d
    · simp [Cursor.after_cons, Cursor.step, Piece.newline, Layout.group, hplace, hm'.1, hm'.2, hline]
    · simp [Cursor.after_cons, Cursor.step, Piece.newline, Layout.group, hplace, hm'.1, hline]

theorem sepBy {separator : List Piece} (hseparator : Tracks some false true separator)
    (h : TracksEach fs pss) : Tracks (inTurn fs) false false (sepBy separator pss) := by
  induction h with
  | nil => exact nil
  | @cons f ps fs pss hps hrest ih =>
    cases hrest with
    | nil =>
      rw [inTurn, inTurn, kleisli_some]
      exact hps
    | cons => exact ((hps.after hseparator).append ih).loosen

theorem commas (h : TracksEach fs pss) : Tracks (inTurn fs) false false (commas pss) :=
  sepBy (mark (by decide) nil) h

/-- A part of a list that is left out when it has no item. -/
theorem part (hm : IsPlainMark m) (h : TracksEach fs pss) :
    ∃ gs, inTurn gs = inTurn fs ∧
      TracksEach gs (if pss.isEmpty then [] else [[Piece.mark m] ++ Piece.commas pss]) := by
  cases h with
  | nil => exact ⟨[], rfl, .nil⟩
  | cons hps hrest =>
    have hitems := commas (.cons hps hrest)
    exact ⟨[_], kleisli_some _, .cons (mark hm hitems.tighten).loosen .nil⟩

/-- After something else than a parenthesis, the pieces do not end with one. -/
theorem past (h : Tracks f a b ps) {c : Cursor} (hc : c.place ≠ .opening) :
    ∃ place, place ≠ .opening ∧ c.after ps = (f c.line).map fun line => ⟨place, line, c.groups⟩ := by
  obtain ⟨place, hplace, hafter⟩ := h c fun _ => hc
  refine ⟨place, ?_, hafter⟩
  obtain rfl | ⟨-, rfl⟩ := hplace
  · nofun
  · exact hc

theorem ends (h : Tracks f a b ps) {c : Cursor} (hc : c.place ≠ .opening) :
    ∃ place line, place ≠ .opening ∧
      c.after ps = if (f c.line).isSome then some ⟨place, line, c.groups⟩ else none := by
  obtain ⟨place, hplace, hafter⟩ := h.past hc
  refine ⟨place, (f c.line).getD 0, hplace, ?_⟩
  rw [hafter]
  cases f c.line <;> rfl

end Tracks

namespace TracksOpen

/-- A parenthesis within a line. -/
theorem mark (hm : closes m = false) (h : Tracks f a b ps) : TracksOpen f a (ps ++ [Piece.mark m]) := by
  intro c hc
  obtain ⟨place, -, hafter⟩ := h c hc
  refine ⟨if opens m then .opening else .inner, by split <;> nofun, ?_⟩
  rw [Cursor.after_append, hafter]
  cases f c.line with
  | none => rfl
  | some line => simp [Cursor.after_cons, Cursor.step, hm]

theorem append (h : TracksOpen f a ps) (h' : Tracks g false b qs) :
    TracksOpen (f >=> g) a (ps ++ qs) := by
  intro c hc
  obtain ⟨middle, hmiddle, hps⟩ := h c hc
  cases hline : f c.line with
  | none => exact ⟨.inner, nofun, by simp [Cursor.after_append, hps, hline, Bind.kleisliRight]⟩
  | some line =>
    obtain ⟨place, hplace, hqs⟩ := h' ⟨middle, line, c.groups⟩ nofun
    refine ⟨place, ?_, by simp [Cursor.after_append, hps, hline, hqs, Bind.kleisliRight]⟩
    obtain rfl | ⟨-, rfl⟩ := hplace
    · nofun
    · exact hmiddle

theorem after (h : TracksOpen f a ps) (hts : Tracks some false b ts) : TracksOpen f a (ps ++ ts) :=
  kleisli_some f ▸ h.append hts

/-- The closing parenthesis does not close a group. -/
theorem close (hm : opens m = false) (h : TracksOpen f a ps) : Tracks f a true (ps ++ [Piece.mark m]) := by
  intro c hc
  obtain ⟨place, hplace, hafter⟩ := h c hc
  refine ⟨.inner, .inl rfl, ?_⟩
  rw [Cursor.after_append, hafter]
  cases f c.line with
  | none => rfl
  | some line => simp [Cursor.after_cons, Cursor.step, hplace, hm]

end TracksOpen

namespace Fills

theorem nil : Fills d fresh true [] :=
  fun c hc _ => ⟨c.place, c.line, hc, rfl⟩

theorem append (h : Fills d fresh closed ps) (h' : Fills j false closed' qs) :
    Fills d fresh (closed && closed') (ps ++ qs) := by
  intro c hc hfresh
  obtain ⟨middle, line, hmiddle, hps⟩ := h c hc hfresh
  obtain ⟨place, line', hplace, hqs⟩ := h' ⟨middle, line, c.groups⟩ hmiddle nofun
  refine ⟨place, line', hplace, ?_⟩
  rw [Cursor.after_append, hps]
  cases closed with
  | false => rfl
  | true => simpa using hqs

theorem after (h : Fills d fresh closed ps) (h' : Fills j false true qs) :
    Fills d fresh closed (ps ++ qs) := by
  simpa using h.append h'

/-- Pieces within a line. -/
theorem text (h : Tracks some a b ps) : Fills d fresh true ps :=
  fun _ hc _ => h.ends hc

/-- A line that starts anew. -/
theorem clause (j : Nat) (h : Tracks f a b ps) : Fills d false (f j).isSome (newline j ++ ps) := by
  intro c hc _
  have hstart : Place.start ≠ .opening := by decide
  have hnewline : c.after (newline j) = some ⟨.start, j, c.groups⟩ := by
    simp [Cursor.after_cons, Cursor.step, newline, hc]
  rw [Cursor.after_append, hnewline, Option.bind_some]
  exact h.ends hstart

/-- The first line. -/
theorem line (h : Tracks f a b ps) : Fills d true (f d).isSome (.indent d :: ps) := by
  intro c hc hfresh
  obtain ⟨hline, hplace⟩ := hfresh rfl
  have hindent : c.step (.indent d) = some ⟨c.place, d, c.groups⟩ := by
    simp [Cursor.step, hplace, hline]
  rw [Cursor.after_cons, hindent, Option.bind_some]
  exact h.ends hc

/-- Pieces on the first line of a layout. -/
theorem start (h : Tracks f a b ps) : Fills 0 true (f 0).isSome ps :=
  fun _ hc hfresh => (hfresh rfl).1 ▸ h.ends hc

/-- Lines that start behind something on a line without indentation. -/
theorem behind (h : Tracks f a b ps) (hf : f 0 = some 0) (h' : Fills 0 true closed qs) :
    Fills 0 true closed (ps ++ qs) := by
  intro c hc hfresh
  obtain ⟨middle, hmiddle, hps⟩ := h.past hc
  obtain ⟨place, line, hplace, hqs⟩ := h' ⟨middle, 0, c.groups⟩ hmiddle fun _ => ⟨rfl, .inr rfl⟩
  rw [(hfresh rfl).1, hf] at hps
  exact ⟨place, line, hplace, by rw [Cursor.after_append, hps, Option.map_some, Option.bind_some, hqs]⟩

/-- Lines after a line break. -/
theorem lineBreak (h : Fills j true closed ps) : Fills d fresh closed (.lineBreak :: ps) := by
  intro c hc _
  have hbreak : c.step .lineBreak = some ⟨.start, 0, c.groups⟩ := by simp [Cursor.step, hc]
  rw [Cursor.after_cons, hbreak, Option.bind_some]
  exact h ⟨.start, 0, c.groups⟩ nofun fun _ => ⟨rfl, .inl rfl⟩

/-- Lines after the start of a new one without indentation. -/
theorem afresh (h : Fills 0 true closed ps) : Fills d fresh closed (newline 0 ++ ps) := by
  have hindent : Tracks some false false [.indent 0] :=
    fun c _ => ⟨c.place, .inr ⟨rfl, rfl⟩, by simp [Cursor.after_cons, Cursor.step]⟩
  exact .lineBreak (.behind hindent rfl h)

/-- Parts that stand on lines of their own. -/
theorem lines (j : Nat) (h : TracksEach fs pss) :
    Fills d false (onLines j fs) (sepBy [.mark ","] (pss.map (newline j ++ ·))) := by
  induction h with
  | nil => exact nil
  | @cons f ps fs pss hps hrest ih =>
    cases hrest with
    | nil => simpa [onLines, Piece.sepBy] using clause j hps
    | cons =>
      have hcomma : Tracks f false true (ps ++ [Piece.mark ","]) := hps.after (.mark (by decide) .nil)
      have hline : Fills d false (f j).isSome (newline j ++ (ps ++ [Piece.mark ","])) := clause j hcomma
      simpa [onLines, Piece.sepBy] using hline.append ih

theorem linesUp_iff (h : Fills 0 true closed ps) : LinesUp ps ↔ closed = true := by
  obtain ⟨place, line, -, hafter⟩ := h .first nofun fun _ => ⟨rfl, .inr rfl⟩
  rw [LinesUp, hafter]
  cases closed with
  | false => simp
  | true => simp [Cursor.first]

end Fills

theorem head?_lines (j : Nat) (pss : List (List Piece)) :
    (sepBy [.mark ","] (pss.map (newline j ++ ·)) ++ newline d).head? = some .lineBreak := by
  match pss with
  | [] | [_] | _ :: _ :: _ => rfl

end

end SqlLayout.Layout
