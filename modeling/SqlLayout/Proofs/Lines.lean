import SqlLayout.Host.Embedded

/-!
Lines and columns. The place of a character leads back to the character, also in a text that has more
characters in front of the first line break; in the first line it then leads to an earlier one.
-/

namespace SqlLayout.Host

@[simp]
theorem lineStart?_zero (text : List Char) : lineStart? 0 text = some 0 := by
  cases text <;> rfl

/-- After some characters of a text, either the line is still the same and the column has moved on, or
the start of the line is known and the column is counted from there. -/
theorem foldl_next_cases (text : List Char) (i : Nat) (hi : i ≤ text.length) (p : Place) :
    (text.take i).foldl Place.next p = ⟨p.line, p.column + i⟩ ∨
    ∃ k start, ((text.take i).foldl Place.next p).line = p.line + (k + 1) ∧
      lineStart? (k + 1) text = some start ∧
      start + ((text.take i).foldl Place.next p).column = i := by
  induction text generalizing i p with
  | nil =>
    cases i with
    | zero => exact .inl rfl
    | succ i => cases hi
  | cons c r ih =>
    cases i with
    | zero => exact .inl rfl
    | succ i =>
      have hr : i ≤ r.length := Nat.le_of_succ_le_succ hi
      rw [List.take_succ_cons, List.foldl_cons]
      by_cases hc : c = '\n'
      · subst hc
        have hnext : p.next '\n' = ⟨p.line + 1, 0⟩ := rfl
        rw [hnext]
        obtain h | ⟨k, start, hline, hstart, hcolumn⟩ := ih i hr ⟨p.line + 1, 0⟩
        · refine .inr ⟨0, 1, ?_, ?_, ?_⟩
          · rw [h]
          · simp [lineStart?]
          · rw [h]
            simp [Nat.add_comm]
        · refine .inr ⟨k + 1, start + 1, ?_, ?_, ?_⟩
          · rw [hline]
            simp only
            omega
          · simp [lineStart?, hstart]
          · omega
      · have hnext : p.next c = ⟨p.line, p.column + 1⟩ := by simp [Place.next, hc]
        rw [hnext]
        obtain h | ⟨k, start, hline, hstart, hcolumn⟩ := ih i hr ⟨p.line, p.column + 1⟩
        · refine .inl ?_
          rw [h]
          simp only [Place.mk.injEq, true_and]
          omega
        · refine .inr ⟨k, start + 1, hline, ?_, ?_⟩
          · simp [lineStart?, hc, hstart]
          · omega

theorem lineStart?_append {a b : List Char} (ha : '\n' ∉ a) (k : Nat) :
    lineStart? (k + 1) (a ++ b) = (lineStart? (k + 1) b).map (· + a.length) := by
  induction a with
  | nil => simp
  | cons c r ih =>
    have hc : c ≠ '\n' := fun h => ha (by simp [h])
    have hr : '\n' ∉ r := fun h => ha (by simp [h])
    simp only [List.cons_append, lineStart?, beq_iff_eq, hc, if_false, ih hr, Option.map_map,
      List.length_cons]
    rfl

/-- The place of a character, looked up in a text with more characters in front of the first line
break. -/
theorem offsetOf_placeOf {front code : List Char} (hfront : '\n' ∉ front) {i : Nat}
    (hi : i ≤ code.length) :
    offsetOf (front ++ code) (placeOf code i) =
      .ok (if (placeOf code i).line = 1 then i else i + front.length) := by
  obtain h | ⟨k, start, hline, hstart, hcolumn⟩ := foldl_next_cases code i hi {}
  · have hplace : placeOf code i = ⟨1, i⟩ := by
      rw [placeOf, h]
      simp
    have hle : i ≤ (front ++ code).length := by
      rw [List.length_append]
      omega
    rw [hplace]
    simp only [offsetOf, Nat.sub_self, lineStart?_zero, Nat.one_ne_zero, if_false, if_true,
      Nat.zero_add, if_pos hle]
  · have hline' : (placeOf code i).line = k + 2 := by
      rw [placeOf, hline]
      simp only
      omega
    have hsum : start + (placeOf code i).column = i := hcolumn
    have hstart' : lineStart? (k + 1) (front ++ code) = some (start + front.length) := by
      rw [lineStart?_append hfront, hstart]
      rfl
    have hle : start + front.length + (placeOf code i).column ≤ (front ++ code).length := by
      rw [List.length_append]
      omega
    have hk : (placeOf code i).line - 1 = k + 1 := by omega
    unfold offsetOf
    rw [hk, hstart', if_neg (by omega), if_neg (by omega)]
    simp only [if_pos hle, Except.ok.injEq]
    omega

end SqlLayout.Host
