import SqlLayout.Proofs.StyleIndependence
import SqlLayout.Layout.OfSql

/-!
The names of types. A cast names the type that was read, up to the case of ASCII letters outside
quotes, unless lower-casing goes further than that: into a quoted name with modifiers after it, the
labels of an enumeration or the name that an array is spelled with, and to letters that are not ASCII.
-/

namespace SqlLayout.Text

/-! ### Letter case outside quotes -/

/-- The quote that a text is in after one more character. A quote that is written twice leaves the
quoted text and goes back into it. -/
def quoteAfter (quote : Option Char) (c : Char) : Option Char :=
  match quote with
  | none => if c = '"' ∨ c = '\x27' then some c else none
  | some q => if c = q then none else some q

/-- The characters with ASCII letters in lower case, but as they are in quotes. -/
def folded (quote : Option Char) : List Char → List Char
  | [] => []
  | c :: r => (if quote.isNone then c.toLower else c) :: folded (quoteAfter quote c) r

/-- Equality up to the case of ASCII letters outside quotes. -/
def SameName (s t : String) : Prop :=
  folded none s.toList = folded none t.toList

instance (s t : String) : Decidable (SameName s t) :=
  inferInstanceAs (Decidable (_ = _))

/-- A letter that has another one for its lower case. -/
def HasLower (c : Char) : Prop :=
  lower (String.singleton c) ≠ String.singleton c

/-- No letter of the text has a lower case, but ASCII letters outside quotes may. -/
def CaseFree (s : String) : Prop :=
  ∀ front c back, s.toList = front ++ c :: back → HasLower c →
    c.toNat < 128 ∧ front.foldl quoteAfter none = none

theorem SameName.refl (s : String) : SameName s s := rfl

@[simp] theorem length_folded (quote : Option Char) (cs : List Char) :
    (folded quote cs).length = cs.length := by
  induction cs generalizing quote with
  | nil => rfl
  | cons c r ih => simp [folded, ih]

theorem toNat_toLower (c : Char) :
    c.toLower.toNat = if 65 ≤ c.toNat ∧ c.toNat ≤ 90 then c.toNat + 32 else c.toNat := by
  have hrange : (c.val ≥ 'A'.val ∧ c.val ≤ 'Z'.val) ↔ 65 ≤ c.toNat ∧ c.toNat ≤ 90 := by
    simp only [ge_iff_le, UInt32.le_iff_toNat_le]
    exact Iff.rfl
  unfold Char.toLower
  split
  · rename_i h
    rw [if_pos (hrange.1 h)]
    have hshift : ('a'.val - 'A'.val).toNat = 32 := by decide
    have hsum := UInt32.toNat_add c.val ('a'.val - 'A'.val)
    have hc := (hrange.1 h).2
    simp only [← Char.toNat_val] at hc ⊢
    omega
  · rename_i h
    rw [if_neg (mt hrange.2 h)]

theorem toLower_toLower (c : Char) : c.toLower.toLower = c.toLower := by
  apply Char.toNat_inj.1
  rw [toNat_toLower c.toLower, toNat_toLower]
  by_cases h : 65 ≤ c.toNat ∧ c.toNat ≤ 90
  · rw [if_pos h, if_neg (by omega)]
  · rw [if_neg h, if_neg h]

theorem toNat_toLower_lt {c : Char} (h : c.toNat < 128) : c.toLower.toNat < 128 := by
  rw [toNat_toLower]
  split <;> omega

theorem toLower_of_not_ascii {c : Char} (h : ¬ c.toNat < 128) : c.toLower = c := by
  apply Char.toNat_inj.1
  rw [toNat_toLower, if_neg (by omega)]

theorem toList_lower (s : String) : (lower s).toList = lowerFrom [] s.toList := by
  have hascii (before cs : List Char) (h : ∀ c ∈ cs, c.toNat < 128) :
      lowerFrom before cs = cs.map Char.toLower := by
    induction cs generalizing before with
    | nil => rfl
    | cons c r ih =>
      have hrest := ih (c :: before) fun x hx => h x (List.mem_cons_of_mem c hx)
      rw [lowerFrom, if_pos (h c List.mem_cons_self), hrest]
      rfl
  unfold lower
  split
  · rename_i h
    rw [asciiLower, String.toList_ofList, hascii]
    simpa using h
  · rw [String.toList_ofList]

theorem hasLower_iff (c : Char) : HasLower c ↔ lowerFrom [] [c] ≠ [c] := by
  rw [HasLower, Ne, ← String.toList_inj, toList_lower, String.toList_singleton]

/-- The lower case of a letter in a text: one letter, which is the same one if it has no other, or
several letters. -/
theorem lowerFrom_cons (before : List Char) (c : Char) (r : List Char) :
    ∃ piece, lowerFrom before (c :: r) = piece ++ lowerFrom (c :: before) r ∧
      ((∃ x, piece = [x] ∧ (x = c ↔ ¬ HasLower c) ∧ (c.toNat < 128 → x = c.toLower)) ∨
        1 < piece.length ∧ HasLower c ∧ ¬ c.toNat < 128) := by
  refine ⟨_, rfl, ?_⟩
  simp only [hasLower_iff, lowerFrom, List.append_nil, not_not]
  split
  · exact .inl ⟨_, rfl, by simp, fun _ => rfl⟩
  · rename_i hwide
    split
    · rename_i hsigma
      have hne : 'ς' ≠ c ∧ 'σ' ≠ c := by
        rw [beq_iff_eq] at hsigma
        constructor <;> rintro rfl <;> exact absurd hsigma (by decide)
      refine .inl ⟨_, rfl, ?_, fun h => absurd h hwide⟩
      split <;> simp [hne]
    · split
      · exact .inr ⟨Nat.one_lt_two, by simp, hwide⟩
      · exact .inl ⟨_, rfl, by simp, fun h => absurd h hwide⟩

theorem length_lowerFrom_le (before cs : List Char) : cs.length ≤ (lowerFrom before cs).length := by
  induction cs generalizing before with
  | nil => exact Nat.le_refl 0
  | cons c r ih =>
    obtain ⟨piece, hpiece, h⟩ := lowerFrom_cons before c r
    have hlength : 1 ≤ piece.length := by
      obtain ⟨x, rfl, -⟩ | ⟨hmany, -⟩ := h
      · exact Nat.le_refl 1
      · omega
    have := ih (c :: before)
    rw [hpiece, List.length_append, List.length_cons]
    omega

/-- A letter may become another one only outside quotes, where both are ASCII letters. -/
theorem fold_eq_iff {c x : Char} (quote : Option Char) (hx : x = c ↔ ¬ HasLower c)
    (hascii : c.toNat < 128 → x = c.toLower) :
    ((if quote.isNone then x.toLower else x) = if quote.isNone then c.toLower else c) ↔
      (HasLower c → c.toNat < 128 ∧ quote = none) := by
  cases quote with
  | none =>
    simp only [Option.isNone_none, if_true, and_true]
    by_cases hc : c.toNat < 128
    · rw [hascii hc, toLower_toLower]
      exact iff_of_true rfl fun _ => hc
    · rw [toLower_of_not_ascii hc, imp_iff_not hc, ← hx]
      constructor
      · intro h
        have hwide : ¬ x.toNat < 128 := fun hx => hc (h ▸ toNat_toLower_lt hx)
        rwa [toLower_of_not_ascii hwide] at h
      · rintro rfl
        exact toLower_of_not_ascii hc
  | some q => simp [hx]

theorem quoteAfter_eq {c x : Char} {quote : Option Char}
    (h : (if quote.isNone then x.toLower else x) = if quote.isNone then c.toLower else c) :
    quoteAfter quote x = quoteAfter quote c := by
  cases quote with
  | none =>
    simp only [Option.isNone_none, if_true] at h
    have hquote (y : Char) (hy : y = '"' ∨ y = '\x27') : x = y ↔ c = y := by
      have hsmall : y.toNat < 97 ∧ y.toLower = y := by
        obtain rfl | rfl := hy <;> decide
      constructor
      · rintro rfl
        exact eq_of_toLower_eq hsmall.1 (h.symm.trans hsmall.2)
      · rintro rfl
        exact eq_of_toLower_eq hsmall.1 (h.trans hsmall.2)
    simp only [quoteAfter, hquote '"' (.inl rfl), hquote '\x27' (.inr rfl)]
    split
    · rename_i hc
      obtain hc | hc := hc
      · rw [hc, (hquote '"' (.inl rfl)).2 hc]
      · rw [hc, (hquote '\x27' (.inr rfl)).2 hc]
    · rfl
  | some q =>
    rw [show x = c by simpa using h]

/-- By induction on the characters, in each quote that they may start in. -/
theorem folded_lowerFrom_iff (before cs : List Char) (quote : Option Char) :
    folded quote (lowerFrom before cs) = folded quote cs ↔
      ∀ front c back, cs = front ++ c :: back → HasLower c →
        c.toNat < 128 ∧ front.foldl quoteAfter quote = none := by
  induction cs generalizing before quote with
  | nil => simp [lowerFrom]
  | cons c r ih =>
    have hsplit : (∀ front d back, c :: r = front ++ d :: back → HasLower d →
        d.toNat < 128 ∧ front.foldl quoteAfter quote = none) ↔
        (HasLower c → c.toNat < 128 ∧ quote = none) ∧
          ∀ front d back, r = front ++ d :: back → HasLower d →
            d.toNat < 128 ∧ front.foldl quoteAfter (quoteAfter quote c) = none := by
      constructor
      · intro h
        exact ⟨h [] c r rfl, fun front d back hr => h (c :: front) d back (by rw [hr]; rfl)⟩
      · rintro ⟨hhead, hrest⟩ (_ | ⟨e, front⟩) d back heq
        · obtain ⟨rfl, -⟩ := List.cons.inj heq
          exact hhead
        · obtain ⟨rfl, hr⟩ := List.cons.inj heq
          exact hrest front d back hr
    rw [hsplit]
    obtain ⟨piece, hpiece, ⟨x, rfl, hx, hascii⟩ | ⟨hmany, hlower, hwide⟩⟩ := lowerFrom_cons before c r
    · rw [hpiece, List.singleton_append, folded, folded, List.cons.injEq, ← fold_eq_iff quote hx hascii]
      refine and_congr_right fun hhead => ?_
      rw [quoteAfter_eq hhead]
      exact ih (c :: before) _
    · refine iff_of_false (fun h => ?_) (fun h => hwide (h.1 hlower).1)
      -- one letter has become several ones
      have hlength := congrArg List.length h
      have hrest := length_lowerFrom_le (c :: before) r
      rw [length_folded, length_folded, hpiece, List.length_append, List.length_cons] at hlength
      omega

/-- Lower-casing keeps a name, if it goes no further than ASCII letters outside quotes. -/
theorem sameName_lower_iff (s : String) : SameName (lower s) s ↔ CaseFree s := by
  rw [SameName, toList_lower]
  exact folded_lowerFrom_iff [] s.toList none

/-- Lower-casing keeps a name of ASCII letters without quotes. -/
theorem sameName_lower_of_unquoted {s : String}
    (h : ∀ c ∈ s.toList, c.toNat < 128 ∧ c ≠ '"' ∧ c ≠ '\x27') : SameName (lower s) s := by
  have hout (cs : List Char) (hcs : ∀ c ∈ cs, c ≠ '"' ∧ c ≠ '\x27') : cs.foldl quoteAfter none = none := by
    induction cs with
    | nil => rfl
    | cons c r ih =>
      have hc : quoteAfter none c = none := if_neg (not_or.2 (hcs c List.mem_cons_self))
      rw [List.foldl_cons, hc]
      exact ih fun x hx => hcs x (List.mem_cons_of_mem c hx)
  refine (sameName_lower_iff s).2 fun front c back heq _ => ?_
  rw [heq] at h
  exact ⟨(h c (by simp)).1, hout front fun x hx => (h x (by simp [hx])).2⟩

end SqlLayout.Text

namespace SqlLayout.Sql

/-- The type inside all array brackets. -/
def DataType.element : DataType → DataType
  | .array t _ => t.element
  | t => t

/-- The number of the array brackets. -/
def DataType.levels : DataType → Nat
  | .array t _ => t.levels + 1
  | _ => 0

/-- A name of the user's own with nothing after it. -/
def DataType.IsName : DataType → Prop
  | .custom _ [] => True
  | _ => False

end SqlLayout.Sql

namespace SqlLayout.Layout

open Sql (DataType)
open Text (SameName CaseFree)

/-! ### Types -/

theorem typeName_snd (d : DataType) : (typeName d).2 = d.levels := by
  fun_induction typeName d with
  | case1 t size name bounds heq ih => rw [DataType.levels, ← ih, heq]
  | case2 => rfl
  | case3 t harray hname => cases t <;> simp_all [DataType.levels]

/-- The name of a type is the one of its element, as it is if it is a name of the user's own. -/
theorem typeName_fst (d : DataType) :
    (d.element.IsName ∧ (typeName d).1 = d.element.print) ∨
      ¬ d.element.IsName ∧ (typeName d).1 = Text.lower d.element.print := by
  fun_induction typeName d with
  | case1 t size name bounds heq ih =>
    rw [heq] at ih
    exact ih
  | case2 name => exact .inl ⟨trivial, rfl⟩
  | case3 t harray hname =>
    refine .inr ?_
    cases t with
    | builtin => exact ⟨id, rfl⟩
    | custom name ms =>
      cases ms with
      | nil => exact absurd rfl (hname name)
      | cons m ms => exact ⟨id, rfl⟩
    | array t size => exact absurd rfl (harray t size)

/-- What a cast is written as: the name of its type, with brackets for each array. -/
theorem textOf_cast (s : Style) (depth : Nat) (isOperand : Bool) (e : Expr) (name : String) (n : Nat) :
    Piece.textOf s ((Expr.cast e name n).pieces s depth isOperand) =
      Piece.textOf s (e.pieces s depth false) ++ "::" ++ name ++ Text.replicate "[]" n := by
  have hbrackets : Piece.textOf s (List.replicate n (.mark "[]")) = Text.replicate "[]" n := by
    induction n with
    | zero => rfl
    | succ n ih => rw [List.replicate_succ, Piece.textOf_cons, ih, Text.replicate, Piece.text]
  simp [Expr.pieces, hbrackets, Piece.text, String.append_assoc]

/-- The type of a cast keeps its name and its array brackets, if it is a name of the user's own or if
lower-casing it goes no further than ASCII letters outside quotes, and else it does not. -/
theorem typeName_names_iff (d : DataType) :
    (typeName d).2 = d.levels ∧
      (∀ s depth isOperand e, Piece.textOf s ((Expr.cast e (typeName d).1 (typeName d).2).pieces s depth
          isOperand) =
        Piece.textOf s (e.pieces s depth false) ++ "::" ++ (typeName d).1 ++
          Text.replicate "[]" d.levels) ∧
      (SameName (typeName d).1 d.element.print ↔ d.element.IsName ∨ CaseFree d.element.print) := by
  refine ⟨typeName_snd d, fun s depth isOperand e => ?_, ?_⟩
  · rw [typeName_snd, textOf_cast]
  · obtain ⟨hname, heq⟩ | ⟨hname, heq⟩ := typeName_fst d
    · rw [heq, iff_true_right (.inl hname)]
      exact .refl _
    · rw [heq, Text.sameName_lower_iff, or_iff_right hname]

/-- The case of a quoted name is lost when modifiers follow it. -/
theorem typeName_loses_case :
    ¬ ∀ d : DataType, (typeName d).2 = d.levels ∧ SameName (typeName d).1 d.element.print := by
  intro h
  exact absurd (h (.custom [⟨"MyType", some '"'⟩] ["3"])).2 (by decide +kernel)

end SqlLayout.Layout
