import Mathlib.Data.List.Induction
import SqlLayout.Proofs.Lines

/-!
From lines and columns to bytes and back. Every place where a character starts, and the end of the text,
is found again by its line and its column; what is found is never inside of a character; and nothing is
found exactly if there is no such line or the text ends before the column.
-/

namespace SqlLayout.Host

/-- The place behind a text. -/
def placeAfter (front : List Char) : Place where
  line := 1 + front.count '\n'
  column := (front.reverse.takeWhile (· != '\n')).length

/-- The text from a line on, where lines count from zero. -/
def fromLine : Nat → List Char → List Char
  | 0, text => text
  | k + 1, text => fromLine k ((text.dropWhile (· != '\n')).drop 1)

/-- The number of the byte at which the character at a place starts. -/
def byteOf (source : String) (p : Place) : Outcome Nat :=
  (offsetOf source.toList p).map fun i => (String.ofList (source.toList.take i)).utf8ByteSize

variable {text : List Char} {k : Nat}

/-! ### Places -/

theorem placeAfter_concat (front : List Char) (c : Char) :
    placeAfter (front ++ [c]) = (placeAfter front).next c := by
  by_cases hc : c = '\n'
  · subst hc
    simp [placeAfter, Place.next, Nat.add_assoc]
  · simp [placeAfter, Place.next, hc]

/-- The place of a character is told by what stands in front of it. -/
theorem placeOf_eq (text : List Char) (i : Nat) : placeOf text i = placeAfter (text.take i) := by
  rw [placeOf]
  induction text.take i using List.reverseRecOn with
  | nil => rfl
  | append_singleton front c ih =>
    rw [List.foldl_append, ih, placeAfter_concat]
    rfl

/-- A place that stands behind a part of the text leads to the end of that part. -/
theorem offsetOf_placeAfter (front back : List Char) :
    offsetOf (front ++ back) (placeAfter front) = .ok front.length := by
  have hplace : placeAfter front = placeOf (front ++ back) front.length := by
    rw [placeOf_eq, List.take_left]
  have hoffset : offsetOf ([] ++ (front ++ back)) (placeOf (front ++ back) front.length) = _ :=
    offsetOf_placeOf List.not_mem_nil (by simp)
  rw [List.nil_append, List.length_nil, Nat.add_zero, ite_self] at hoffset
  rw [hplace, hoffset]

/-! ### Lines -/

theorem fromLine_newline (k : Nat) (r : List Char) : fromLine (k + 1) ('\n' :: r) = fromLine k r := by
  simp [fromLine]

theorem fromLine_cons {c : Char} (hc : c ≠ '\n') (k : Nat) (r : List Char) :
    fromLine (k + 1) (c :: r) = fromLine (k + 1) r := by
  simp [fromLine, hc]

theorem length_fromLine_le (k : Nat) (text : List Char) : (fromLine k text).length ≤ text.length := by
  induction k generalizing text with
  | zero => exact Nat.le_refl _
  | succ k ih =>
    have hdrop : ((text.dropWhile (· != '\n')).drop 1).length ≤ text.length := by
      have := (List.dropWhile_suffix (l := text) (· != '\n')).length_le
      rw [List.length_drop]
      omega
    exact Nat.le_trans (ih _) hdrop

/-- A line starts where the text from that line on does, if there are so many line breaks. -/
theorem lineStart?_eq (k : Nat) (text : List Char) :
    lineStart? k text =
      if k ≤ text.count '\n' then some (text.length - (fromLine k text).length) else none := by
  induction text generalizing k with
  | nil => cases k <;> simp [lineStart?, fromLine]
  | cons c r ih =>
    cases k with
    | zero => simp [fromLine]
    | succ k =>
      have hle (k : Nat) : (fromLine k r).length ≤ r.length := length_fromLine_le k r
      by_cases hc : c = '\n'
      · subst hc
        rw [lineStart?, if_pos (beq_self_eq_true _), ih, fromLine_newline, List.count_cons_self, List.length_cons,
          Nat.succ_sub (hle k)]
        by_cases hk : k ≤ r.count '\n'
        · simp [hk]
        · simp [hk]
      · rw [lineStart?, if_neg (by simpa using hc), ih, fromLine_cons hc, List.count_cons_of_ne hc,
          List.length_cons, Nat.succ_sub (hle (k + 1))]
        split <;> rfl

/-- A place leads nowhere if there is no such line, or if the text ends before the column. -/
theorem offsetOf_eq_error_iff (text : List Char) (p : Place) :
    (∃ e, offsetOf text p = .error e) ↔ p.line = 0 ∨ 1 + text.count '\n' < p.line ∨
      (fromLine (p.line - 1) text).length < p.column := by
  have hle := length_fromLine_le (p.line - 1) text
  rw [offsetOf]
  by_cases hzero : p.line = 0
  · simp [hzero]
  · rw [if_neg hzero, lineStart?_eq]
    by_cases hline : p.line - 1 ≤ text.count '\n'
    · rw [if_pos hline]
      by_cases hcolumn : text.length - (fromLine (p.line - 1) text).length + p.column ≤ text.length
      · simp only [if_pos hcolumn, reduceCtorEq, exists_false, false_iff, not_or]
        omega
      · simp only [if_neg hcolumn, Except.error.injEq, exists_eq', true_iff]
        omega
    · simp only [if_neg hline, Except.error.injEq, exists_eq', true_iff]
      omega

theorem le_length_of_offsetOf {p : Place} {i : Nat} (h : offsetOf text p = .ok i) : i ≤ text.length := by
  unfold offsetOf at h
  split at h
  · cases h
  · split at h
    · rename_i hle
      cases h
      exact hle
    · cases h

/-! ### Bytes -/

/-- Each number of characters that a text has leads to a byte at which a character starts. -/
theorem isValid_byte (source : String) (i : Nat) :
    String.Pos.Raw.IsValid source ⟨(String.ofList (source.toList.take i)).utf8ByteSize⟩ := by
  refine String.Pos.Raw.isValid_iff_exists_append.2
    ⟨String.ofList (source.toList.take i), String.ofList (source.toList.drop i), ?_, rfl⟩
  rw [← String.ofList_append, List.take_append_drop, String.ofList_toList]

theorem byteOf_eq_error_iff (source : String) (p : Place) :
    (∃ e, byteOf source p = .error e) ↔ ∃ e, offsetOf source.toList p = .error e := by
  rw [byteOf]
  cases offsetOf source.toList p <;> simp [Except.map]

/-- Every byte at which a character starts, and the end of the text, has one line and one column, which
lead back to it. No line and column lead into a character, and they lead nowhere exactly if there is no
such line or the text ends before the column. -/
theorem byteOf_inverts_placeAfter (source : String) :
    (∀ p : source.Pos,
      byteOf source (placeAfter (source.sliceTo p).copy.toList) = .ok p.offset.byteIdx) ∧
    (∀ p i, byteOf source p = .ok i → String.Pos.Raw.IsValid source ⟨i⟩) ∧
    ∀ p, (∃ e, byteOf source p = .error e) ↔ p.line = 0 ∨ 1 + source.toList.count '\n' < p.line ∨
      (fromLine (p.line - 1) source.toList).length < p.column := by
  refine ⟨fun p => ?_, fun p i h => ?_, fun p => ?_⟩
  · have hsplit := p.splits
    generalize (source.sliceTo p).copy = front at hsplit
    generalize (source.sliceFrom p).copy = back at hsplit
    have hsource : source.toList = front.toList ++ back.toList := by
      rw [← String.toList_append, ← hsplit.eq_append]
    rw [byteOf, hsource, offsetOf_placeAfter, hsplit.offset_eq_rawEndPos]
    simp [Except.map]
  · rw [byteOf] at h
    cases hoffset : offsetOf source.toList p with
    | error e =>
      rw [hoffset] at h
      cases h
    | ok j =>
      rw [hoffset] at h
      cases h
      exact isValid_byte source j
  · rw [byteOf_eq_error_iff, offsetOf_eq_error_iff]

end SqlLayout.Host
