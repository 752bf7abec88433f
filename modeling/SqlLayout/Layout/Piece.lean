import SqlLayout.Style

/-!
Laid-out text as a sequence of pieces. A piece is fixed text that the layout writes, a text of the
tree, a line break, or the indentation of a line. Only the indentation's text hangs on the style.
-/

namespace SqlLayout.Layout

/-- A piece of laid-out text. -/
inductive Piece
  /-- A keyword, a mark of punctuation or a blank that the layout writes. -/
  | mark (text : String)
  /-- A text of the tree. -/
  | leaf (text : String)
  /-- A line break. -/
  | lineBreak
  /-- The indentation of a line at the given depth. -/
  | indent (depth : Nat)
  deriving DecidableEq, Repr, Inhabited

/-- The text of a piece. -/
def Piece.text (s : Style) : Piece → String
  | .mark t => t
  | .leaf t => t
  | .lineBreak => "\n"
  | .indent d => s.indentBy d

/-- The text of several pieces. -/
def Piece.textOf (s : Style) : List Piece → String
  | [] => ""
  | p :: ps => p.text s ++ textOf s ps

@[simp] theorem Piece.textOf_nil (s : Style) : textOf s [] = "" := rfl

@[simp] theorem Piece.textOf_cons (s : Style) (p : Piece) (ps : List Piece) :
    textOf s (p :: ps) = p.text s ++ textOf s ps := rfl

@[simp] theorem Piece.textOf_append (s : Style) (ps qs : List Piece) :
    textOf s (ps ++ qs) = textOf s ps ++ textOf s qs := by
  induction ps with
  | nil => simp
  | cons p ps ih => simp [ih, String.append_assoc]

/-- A line break and the indentation of the line that it starts. -/
def Piece.newline (depth : Nat) : List Piece :=
  [.lineBreak, .indent depth]

theorem Piece.textOf_newline (s : Style) (depth : Nat) : textOf s (newline depth) = s.newline depth := by
  simp [newline, Piece.text, Style.newline]

/-- Groups of pieces with a separator between neighbours. -/
def Piece.sepBy (separator : List Piece) : List (List Piece) → List Piece
  | [] => []
  | [ps] => ps
  | ps :: qs :: r => ps ++ separator ++ sepBy separator (qs :: r)

/-- Groups of pieces with a comma and a blank between neighbours. -/
abbrev Piece.commas : List (List Piece) → List Piece :=
  sepBy [.mark ", "]

/-- Texts of the tree with fixed text between neighbours. -/
def Piece.leaves (separator : String) (texts : List String) : List Piece :=
  sepBy [.mark separator] (texts.map fun t => [.leaf t])

theorem Piece.textOf_leaves (s : Style) (separator : String) (texts : List String) :
    textOf s (leaves separator texts) = Text.joinWith separator texts := by
  unfold leaves
  induction texts with
  | nil => rfl
  | cons t r ih =>
    cases r with
    | nil => simp [sepBy, Piece.text, Text.joinWith]
    | cons u r =>
      rw [List.map_cons, List.map_cons] at *
      simp only [sepBy, textOf_append, Text.joinWith, ih]
      simp [Piece.text]

end SqlLayout.Layout
