import Mathlib.Data.List.TakeWhile
import SqlLayout.Proofs.NewLiterals

/-!
How far a scanner looks. A token that stops in front of a text literal is read without a look at that
literal, as long as a gap stands between them: with another text literal there, the token is the same.
-/

namespace SqlLayout.Host

/-- A character that no token runs over if it stands in front of a text literal. -/
def isGap (c : Char) : Bool :=
  ['=', ')', ']', '\x7d', '/'].contains c || isHostBlank c

/-- A text that is not empty and ends with a gap. -/
def EndsInGap (q : List Char) : Prop :=
  ∃ front c, q = front ++ [c] ∧ isGap c

/-- A text in front of which a text literal may start. -/
def StartsText (t : List Char) : Prop :=
  ∃ c r, t = c :: r ∧ (c = '"' ∨ c = 'r')

/-! ### Gaps -/

/-- The codes of the gaps. -/
def gapCodes : List Nat :=
  [61, 41, 93, 125, 47, 0x20, 0x85, 0xA0, 0x1680, 0x200E, 0x200F, 0x2028, 0x2029, 0x202F, 0x205F,
    0x3000] ++ List.range' 9 5 ++ List.range' 0x2000 11

theorem mem_gapCodes {c : Char} (h : isGap c) : c.toNat ∈ gapCodes := by
  simp only [isGap, List.contains_eq_mem, List.mem_cons, List.not_mem_nil, or_false, isHostBlank,
    Text.isBlank, Bool.or_eq_true, decide_eq_true_eq, Bool.and_eq_true, beq_iff_eq] at h
  obtain (rfl | rfl | rfl | rfl | rfl) | h := h
  · decide
  · decide
  · decide
  · decide
  · decide
  · simp only [gapCodes, List.mem_append, List.mem_cons, List.not_mem_nil, or_false, List.mem_range'_1]
    omega

/-- What holds of every gap can be checked. -/
theorem of_isGap {p : Char → Bool} (hp : ∀ n ∈ gapCodes, p (Char.ofNat n) = true) {c : Char}
    (h : isGap c) : p c = true := by
  have hc := hp c.toNat (mem_gapCodes h)
  rwa [Char.ofNat_toNat] at hc

theorem beq_of_isGap {c d : Char} (h : isGap c) (hd : isGap d = false) : (c == d) = false := by
  rw [beq_eq_false_iff_ne]
  rintro rfl
  rw [hd] at h
  cases h

theorem not_wordChar_of_isGap {c : Char} (h : isGap c) : Text.isWordChar c = false := by
  simpa using of_isGap (p := fun c => !Text.isWordChar c) (by decide +kernel) h

theorem wordChar_of_wordStart {c : Char} (h : Text.isWordStart c) : Text.isWordChar c := by
  unfold Text.isWordStart at h
  unfold Text.isWordChar
  split at h
  · rename_i hlow
    rw [if_pos hlow]
    rw [Bool.or_eq_true] at h ⊢
    exact h.imp_left fun halpha => by rw [Char.isAlphanum, halpha, Bool.true_or]
  · rename_i hhigh
    rw [if_neg hhigh, h, Bool.true_or]

theorem not_wordStart_of_isGap {c : Char} (h : isGap c) : Text.isWordStart c = false := by
  rw [Bool.eq_false_iff]
  intro hstart
  have hword := wordChar_of_wordStart hstart
  rw [not_wordChar_of_isGap h] at hword
  cases hword

theorem not_hexDigit_of_isGap {c : Char} (h : isGap c) : isHostHexDigit c = false := by
  simpa using of_isGap (p := fun c => !isHostHexDigit c) (by decide) h

theorem not_decimalPart_of_isGap {c : Char} (h : isGap c) : isDecimalPart c = false := by
  simpa using of_isGap (p := fun c => !isDecimalPart c) (by decide) h

theorem endsInGap_cons {c : Char} {q : List Char} :
    EndsInGap (c :: q) ↔ (q = [] ∧ isGap c) ∨ EndsInGap q := by
  constructor
  · rintro ⟨front, d, heq, hd⟩
    cases front with
    | nil =>
      obtain ⟨rfl, rfl⟩ := List.cons.inj heq
      exact .inl ⟨rfl, hd⟩
    | cons x front => exact .inr ⟨front, d, (List.cons.inj heq).2, hd⟩
  · rintro (⟨rfl, hc⟩ | ⟨front, d, rfl, hd⟩)
    · exact ⟨[], c, rfl, hc⟩
    · exact ⟨c :: front, d, rfl, hd⟩

theorem EndsInGap.ne_nil {q : List Char} (h : EndsInGap q) : q ≠ [] := by
  obtain ⟨front, c, rfl, -⟩ := h
  simp

theorem EndsInGap.tail {c : Char} {q : List Char} (h : EndsInGap (c :: q)) (hc : isGap c = false) :
    EndsInGap q := by
  obtain ⟨-, hgap⟩ | h := endsInGap_cons.1 h
  · rw [hc] at hgap
    cases hgap
  · exact h

theorem EndsInGap.drop {q : List Char} {n : Nat} (h : EndsInGap q) (hn : n < q.length) :
    EndsInGap (q.drop n) := by
  obtain ⟨front, c, rfl, hc⟩ := h
  rw [List.length_append, List.length_singleton] at hn
  exact ⟨front.drop n, c, List.drop_append_of_le_length (by omega), hc⟩

/-- A run of characters that are no gaps ends in front of the last one. -/
theorem EndsInGap.takeWhile_append {p : Char → Bool} {q : List Char} (h : EndsInGap q)
    (hp : ∀ c, isGap c → p c = false) (t : List Char) :
    (q ++ t).takeWhile p = q.takeWhile p ∧ (q.takeWhile p).length < q.length := by
  induction q with
  | nil => exact absurd rfl h.ne_nil
  | cons c q ih =>
    by_cases hc : p c
    · have hrest := ih (h.tail (Bool.eq_false_iff.2 fun hgap => by simp [hp c hgap] at hc))
      simp [hc, hrest]
    · simp [hc]

/-! ### Beginnings -/

/-- Nowhere in the text a gap stands in front of what may start a text literal. -/
def keepsGaps : List Char → Bool
  | c :: d :: r => !(isGap c && (d == '"' || d == 'r')) && keepsGaps (d :: r)
  | _ => true

section

variable {q t t' : List Char}

theorem isPrefixOf_append {s : List Char} (hs : keepsGaps s) (hq : EndsInGap q) (ht : StartsText t) :
    s.isPrefixOf (q ++ t) = s.isPrefixOf q := by
  induction q generalizing s with
  | nil => exact absurd rfl hq.ne_nil
  | cons c q ih =>
    match s with
    | [] => rfl
    | [a] => simp [List.isPrefixOf]
    | a :: b :: s =>
      rw [keepsGaps, Bool.and_eq_true] at hs
      rw [List.cons_append, List.isPrefixOf, List.isPrefixOf]
      obtain ⟨rfl, hc⟩ | hq := endsInGap_cons.1 hq
      -- the gap is the last character, and what starts a text comes next
      · obtain ⟨d, r, rfl, hd⟩ := ht
        by_cases hac : a = c
        · subst hac
          have hb : b ≠ d := by
            rintro rfl
            obtain rfl | rfl := hd <;> simp [hc] at hs
          simp [List.isPrefixOf, hb]
        · simp [hac]
      · rw [ih hs.2 hq]

theorem startsWith_append {s : String} (hs : keepsGaps s.toList) (hq : EndsInGap q)
    (ht : StartsText t) : startsWith (q ++ t) s = startsWith q s :=
  isPrefixOf_append hs hq ht

/-- What a text with a gap at its end starts with, and the rest of it. -/
theorem EndsInGap.drop_of_startsWith {s : String} (hq : EndsInGap q) (h : startsWith q s = true)
    (hs : s.toList.getLast?.any (!isGap ·) = true) :
    EndsInGap (q.drop s.length) ∧ (q.drop s.length).length + s.length = q.length ∧
      ∀ t, (q ++ t).drop s.length = q.drop s.length ++ t := by
  obtain ⟨r, rfl⟩ := List.isPrefixOf_iff_prefix.1 h
  have hlt : s.length < (s.toList ++ r).length := by
    cases r with
    | nil =>
      obtain ⟨front, c, heq, hc⟩ := hq
      rw [List.append_nil] at heq
      rw [heq, List.getLast?_concat] at hs
      simp [hc] at hs
    | cons c r =>
      rw [List.length_append, String.length_toList, List.length_cons]
      omega
  exact ⟨hq.drop hlt, by rw [List.length_drop]; omega,
    fun t => List.drop_append_of_le_length (Nat.le_of_lt hlt)⟩

/-- The scanner does not look at what stands behind the text: its token ends before. -/
def StopsIn (f : List Char → Option Nat) (q t : List Char) : Prop :=
  f (q ++ t) = f q ∧ ∀ n, f q = some n → n < q.length

/-! ### Words -/

theorem plainWordLength?_append (hq : EndsInGap q) (t : List Char) :
    StopsIn plainWordLength? q t := by
  obtain ⟨c, q, rfl⟩ := List.exists_cons_of_ne_nil hq.ne_nil
  by_cases hc : Text.isWordStart c
  · have htail := hq.tail (Bool.eq_false_iff.2 fun h => by simp [not_wordStart_of_isGap h] at hc)
    obtain ⟨htake, hlt⟩ := htail.takeWhile_append (fun _ => not_wordChar_of_isGap) t
    simp only [StopsIn, List.cons_append, plainWordLength?, hc, if_true, htake, List.length_cons, true_and]
    intro n hn
    cases hn
    omega
  · simp [StopsIn, plainWordLength?, hc]

theorem suffixLength_append (hq : EndsInGap q) (t : List Char) :
    suffixLength (q ++ t) = suffixLength q ∧ suffixLength q < q.length := by
  obtain ⟨heq, hlt⟩ := plainWordLength?_append hq t
  rw [suffixLength, suffixLength, heq]
  refine ⟨rfl, ?_⟩
  cases h : plainWordLength? q with
  | none => exact List.length_pos_iff.2 hq.ne_nil
  | some n => exact hlt n h

theorem wordLength?_append (hq : EndsInGap q) (ht : StartsText t) :
    StopsIn wordLength? q t := by
  rw [StopsIn, wordLength?, wordLength?, startsWith_append (by decide) hq ht]
  split
  · rename_i hmark
    obtain ⟨hrest, -, happend⟩ := hq.drop_of_startsWith hmark (by decide)
    have hlength : "r#".length = 2 := rfl
    rw [hlength] at hrest happend
    obtain ⟨heq, hlt⟩ := plainWordLength?_append hrest t
    rw [happend, heq]
    cases hn : plainWordLength? (q.drop 2) with
    | none => simp
    | some n =>
      have hle := hlt n hn
      have htake : (q.drop 2 ++ t).take n = (q.drop 2).take n :=
        List.take_append_of_le_length (Nat.le_of_lt hle)
      simp only [Option.bind_eq_bind, Option.bind_some, htake, true_and]
      intro k hk
      rw [List.length_drop] at hle
      split at hk
      · cases hk
      · cases hk
        omega
  · exact plainWordLength?_append hq t

/-! ### Numbers -/

theorem exponentLength?_append (hq : EndsInGap q) (t : List Char) :
    StopsIn exponentLength? q t := by
  obtain ⟨hblanks, hlt⟩ := hq.takeWhile_append (p := (· == '_'))
    (fun c hc => beq_of_isGap hc (by decide)) t
  have hrest := hq.drop hlt
  have hdrop : (q ++ t).drop (q.takeWhile (· == '_')).length =
      q.drop (q.takeWhile (· == '_')).length ++ t :=
    List.drop_append_of_le_length (Nat.le_of_lt hlt)
  have hlength : (q.drop (q.takeWhile (· == '_')).length).length =
      q.length - (q.takeWhile (· == '_')).length := List.length_drop
  simp only [StopsIn, exponentLength?, hblanks, hdrop]
  generalize q.drop (q.takeWhile (· == '_')).length = r at hrest hlength ⊢
  obtain ⟨c, r, rfl⟩ := List.exists_cons_of_ne_nil hrest.ne_nil
  simp only [List.cons_append]
  by_cases hsign : (c == '+' || c == '-') = true
  · have htail := hrest.tail (c := c) (Bool.eq_false_iff.2 fun h => by
      rw [beq_of_isGap h (d := '+') (by decide), beq_of_isGap h (d := '-') (by decide)] at hsign
      cases hsign)
    obtain ⟨htake, hlt'⟩ := htail.takeWhile_append (fun _ => not_decimalPart_of_isGap) t
    simp only [hsign, if_true, List.drop_succ_cons, List.drop_zero, htake, true_and]
    intro n hn
    rw [List.length_cons] at hlength
    split at hn
    · cases hn
      omega
    · cases hn
  · obtain ⟨htake, hlt'⟩ := hrest.takeWhile_append (fun _ => not_decimalPart_of_isGap) t
    simp only [List.cons_append] at htake
    simp only [hsign, if_false, List.drop_zero, htake, Bool.false_eq_true, true_and]
    intro n hn
    split at hn
    · cases hn
      omega
    · cases hn

/-- A run of characters that are no gaps, and what stands behind it. -/
theorem EndsInGap.run {p : Char → Bool} (hq : EndsInGap q) (hp : ∀ c, isGap c → p c = false) :
    ∃ c r, EndsInGap (c :: r) ∧ (q.takeWhile p).length + (r.length + 1) = q.length ∧
      q.drop (q.takeWhile p).length = c :: r ∧
      ∀ t, (q ++ t).takeWhile p = q.takeWhile p ∧
        (q ++ t).drop (q.takeWhile p).length = c :: (r ++ t) := by
  have hlt := (hq.takeWhile_append hp []).2
  have hrest := hq.drop hlt
  have hlength : (q.drop (q.takeWhile p).length).length = q.length - (q.takeWhile p).length :=
    List.length_drop
  have hdrop (t : List Char) :
      (q ++ t).drop (q.takeWhile p).length = q.drop (q.takeWhile p).length ++ t :=
    List.drop_append_of_le_length (Nat.le_of_lt hlt)
  obtain ⟨c, r, hcr⟩ := List.exists_cons_of_ne_nil hrest.ne_nil
  rw [hcr] at hrest hlength hdrop
  rw [List.length_cons] at hlength
  exact ⟨c, r, hrest, by omega, hcr, fun t => ⟨(hq.takeWhile_append hp t).1, hdrop t⟩⟩

/-- What stands behind a text does not change its first character. -/
theorem EndsInGap.head?_append (hq : EndsInGap q) (t : List Char) : (q ++ t).head? = q.head? := by
  obtain ⟨c, r, rfl⟩ := List.exists_cons_of_ne_nil hq.ne_nil
  rfl

theorem floatDigitsLength?_append (hq : EndsInGap q) (t : List Char) :
    StopsIn floatDigitsLength? q t := by
  have hexponent {c : Char} {e : List Char} (he : EndsInGap (c :: e)) (hc : (c == 'e' || c == 'E') = true) :
      StopsIn exponentLength? e t := by
    refine exponentLength?_append (he.tail (Bool.eq_false_iff.2 fun h => ?_)) t
    rw [beq_of_isGap h (d := 'e') (by decide), beq_of_isGap h (d := 'E') (by decide)] at hc
    cases hc
  obtain ⟨c, r, hrest, hlength, hdrop, happend⟩ := hq.run fun _ => not_decimalPart_of_isGap
  obtain ⟨htake, hdrop'⟩ := happend t
  simp only [StopsIn, floatDigitsLength?, htake, hdrop, hdrop', hq.head?_append]
  split
  · simp
  by_cases hpoint : c = '.'
  · subst hpoint
    have hafter := hrest.tail (by decide)
    simp only [hafter.head?_append]
    split
    · simp
    obtain ⟨e, u, hend, hlength', hdrop₁, happend'⟩ := hafter.run fun _ => not_decimalPart_of_isGap
    obtain ⟨htake', hdrop₂⟩ := happend' t
    simp only [htake', hdrop₁, hdrop₂]
    split
    · rename_i hletter
      obtain ⟨heq, hlt⟩ := hexponent hend hletter
      simp only [heq, true_and]
      intro n hn
      cases hn
      cases hk : exponentLength? u with
      | none =>
        dsimp only
        omega
      | some k =>
        have := hlt k hk
        dsimp only
        omega
    · simp only [true_and]
      intro n hn
      cases hn
      omega
  · by_cases hletter : (c == 'e' || c == 'E') = true
    · obtain ⟨heq, hlt⟩ := hexponent hrest hletter
      simp only [hletter, if_true, heq, true_and]
      intro n hn
      obtain ⟨k, hk, rfl⟩ := Option.map_eq_some_iff.1 hn
      have := hlt k hk
      omega
    · simp [hletter]

theorem baseOf_cases (cs : List Char) : baseOf cs = 10 ∨
    ∃ d r, cs = '0' :: d :: r ∧ isGap d = false ∧ ∀ r', baseOf ('0' :: d :: r') = baseOf cs := by
  unfold baseOf
  split
  · exact .inr ⟨_, _, rfl, by decide, fun _ => rfl⟩
  · exact .inr ⟨_, _, rfl, by decide, fun _ => rfl⟩
  · exact .inr ⟨_, _, rfl, by decide, fun _ => rfl⟩
  · exact .inl rfl

theorem baseOf_append (hq : EndsInGap q) (t : List Char) : baseOf (q ++ t) = baseOf q := by
  obtain hten | ⟨d, r, rfl, -, hbase⟩ := baseOf_cases q
  · obtain hten' | ⟨d, r, heq, -, hbase⟩ := baseOf_cases (q ++ t)
    · rw [hten, hten']
    · obtain ⟨c, q, rfl⟩ := List.exists_cons_of_ne_nil hq.ne_nil
      obtain ⟨hc, hq'⟩ := List.cons.inj heq
      subst hc
      obtain ⟨e, q, rfl⟩ := List.exists_cons_of_ne_nil (hq.tail (by decide)).ne_nil
      obtain ⟨he, -⟩ := List.cons.inj hq'
      rw [← he] at hbase
      exact (hbase q).symm
  · exact hbase (r ++ t)

theorem integerDigitsLength?_append (hq : EndsInGap q) (t : List Char) :
    StopsIn integerDigitsLength? q t := by
  have hrest : ∃ lead, (if baseOf q == 10 then 0 else 2) = lead ∧ EndsInGap (q.drop lead) ∧
      (q ++ t).drop lead = q.drop lead ++ t ∧ (q.drop lead).length + lead = q.length := by
    obtain hten | ⟨d, r, rfl, hd, -⟩ := baseOf_cases q
    · exact ⟨0, by simp [hten], hq, rfl, rfl⟩
    · by_cases hten : baseOf ('0' :: d :: r) = 10
      · exact ⟨0, by simp [hten], hq, rfl, rfl⟩
      · exact ⟨2, by simp [hten], (hq.tail (by decide)).tail hd, rfl, rfl⟩
  obtain ⟨lead, hlead, hrest, hdrop, hlength⟩ := hrest
  have hgap (c : Char) (h : isGap c) :
      (c == '_' || c.isDigit || (isHostHexDigit c && hexValue c < baseOf q)) = false := by
    have := of_isGap (p := fun c => !(c == '_' || c.isDigit)) (by decide) h
    simpa [not_hexDigit_of_isGap h] using this
  obtain ⟨htake, hlt⟩ := hrest.takeWhile_append hgap t
  simp only [StopsIn, integerDigitsLength?, baseOf_append hq, hlead, hdrop, htake, true_and]
  intro n hn
  split at hn
  · cases hn
  split at hn
  · cases hn
  split at hn
  · cases hn
    omega
  · cases hn

theorem numberLength?_append {digits : List Char → Option Nat} (hq : EndsInGap q)
    (h : StopsIn digits q t) : StopsIn (numberLength? digits) q t := by
  obtain ⟨heq, hlt⟩ := h
  rw [StopsIn, numberLength?, numberLength?, heq]
  cases hn : digits q with
  | none => simp
  | some n =>
    have hn := hlt n hn
    obtain ⟨hsuffix, hlt'⟩ := suffixLength_append (hq.drop hn) t
    have hdrop {k : Nat} (hk : k < q.length) : (q ++ t).drop k = q.drop k ++ t :=
      List.drop_append_of_le_length (Nat.le_of_lt hk)
    rw [List.length_drop] at hlt'
    simp only [Option.bind_eq_bind, Option.bind_some, hdrop hn, hsuffix]
    rw [hdrop (by omega), (hq.drop (by omega)).head?_append]
    refine ⟨rfl, fun k hk => ?_⟩
    split at hk
    · cases hk
    · cases hk
      omega

/-! ### Escapes and characters -/

theorem bracedCode?_append (hq : EndsInGap q) (t : List Char) (value digits n : Nat) :
    bracedCode? value digits n (q ++ t) = bracedCode? value digits n q := by
  induction q generalizing value digits n with
  | nil => exact absurd rfl hq.ne_nil
  | cons c q ih =>
    by_cases hhex : isHostHexDigit c
    · have htail := hq.tail (Bool.eq_false_iff.2 fun h => by simp [not_hexDigit_of_isGap h] at hhex)
      simp [bracedCode?, hhex, ih htail]
    · by_cases hblank : c = '_'
      · subst hblank
        simp [bracedCode?, hhex, ih (hq.tail (by decide))]
      · simp [bracedCode?, hhex, hblank]

/-- No digit of a sequence is a gap. -/
def LiteralRules.NoGaps (rules : LiteralRules) : Prop :=
  ∀ a b, isGap a → rules.isHexPair a b = false

theorem noGaps_textRules : textRules.NoGaps := fun a b h => by
  have := of_isGap (p := fun c => !('0' ≤ c && c ≤ '7')) (by decide) h
  rw [Bool.not_eq_true'] at this
  simp only [textRules, this, Bool.false_and]

theorem noGaps_byteRules : byteRules.NoGaps := fun a b h => by
  simp [byteRules, not_hexDigit_of_isGap h]

theorem noGaps_cTextRules : cTextRules.NoGaps := fun a b h => by
  simp [cTextRules, not_hexDigit_of_isGap h]

theorem bracedCode?_le {value digits n m code : Nat} {cs : List Char}
    (h : bracedCode? value digits n cs = some (code, m)) : m ≤ n + cs.length := by
  fun_induction bracedCode? value digits n cs with
  | case1 => cases h
  | case2 value digits n c r _ _ ih =>
    have := ih h
    rw [List.length_cons]
    omega
  | case3 => cases h
  | case4 value digits n c r _ _ _ ih =>
    have := ih h
    rw [List.length_cons]
    omega
  | case5 value digits n c r =>
    cases h
    rw [List.length_cons]
    omega
  | case6 => cases h
  | case7 => cases h

theorem escapeLength?_append {rules : LiteralRules} (hrules : rules.NoGaps) (hq : EndsInGap q)
    (ht : StartsText t) (ht' : StartsText t') :
    rules.escapeLength? (q ++ t) = rules.escapeLength? (q ++ t') ∧
      ∀ n, rules.escapeLength? (q ++ t) = some n → n ≤ q.length := by
  obtain ⟨c, q, rfl⟩ := List.exists_cons_of_ne_nil hq.ne_nil
  by_cases hx : c = 'x'
  · subst hx
    have htail := hq.tail (by decide)
    obtain ⟨a, q, rfl⟩ := List.exists_cons_of_ne_nil htail.ne_nil
    cases q with
    | nil =>
      obtain ⟨-, ha⟩ | hnil := endsInGap_cons.1 htail
      · obtain ⟨d, r, rfl, -⟩ := ht
        obtain ⟨d', r', rfl, -⟩ := ht'
        simp [LiteralRules.escapeLength?, hrules a _ ha]
      · exact absurd rfl hnil.ne_nil
    | cons b q =>
      refine ⟨rfl, fun n hn => ?_⟩
      simp only [List.cons_append, LiteralRules.escapeLength?] at hn
      split at hn
      · cases hn
        simp
      · cases hn
  · by_cases hu : c = 'u'
    · subst hu
      have htail := hq.tail (by decide)
      obtain ⟨a, q, rfl⟩ := List.exists_cons_of_ne_nil htail.ne_nil
      by_cases ha : a = '\x7b'
      · subst ha
        have hcode := bracedCode?_append (htail.tail (by decide))
        simp only [List.cons_append, LiteralRules.escapeLength?, hcode, true_and]
        intro n hn
        obtain ⟨allowed, -, hn⟩ := Option.bind_eq_some_iff.1 hn
        obtain ⟨⟨code, m⟩, hm, hn⟩ := Option.bind_eq_some_iff.1 hn
        have hle := bracedCode?_le hm
        dsimp only at hn
        split at hn
        · cases hn
          simp only [List.length_cons]
          omega
        · cases hn
      · simp [LiteralRules.escapeLength?, ha]
    · simp [LiteralRules.escapeLength?, hx, hu]

/-- Behind a gap no quote stands in front of a text. -/
theorem quote_append {n : Nat} (hq : EndsInGap q) (hn : n ≤ q.length) (ht : StartsText t)
    (ht' : StartsText t') (k : Nat) :
    (match (q ++ t).drop n with
      | '\x27' :: _ => some k
      | _ => none) =
    (match (q ++ t').drop n with
      | '\x27' :: _ => some k
      | _ => none) ∧
    ∀ m, (match (q ++ t).drop n with
      | '\x27' :: _ => some k
      | _ => none) = some m → m = k ∧ n + 1 < q.length := by
  rw [List.drop_append_of_le_length hn, List.drop_append_of_le_length hn]
  obtain hlt | rfl := Nat.lt_or_eq_of_le hn
  · have hrest := hq.drop hlt
    have hlength : (q.drop n).length = q.length - n := List.length_drop
    obtain ⟨c, r, hcr⟩ := List.exists_cons_of_ne_nil hrest.ne_nil
    rw [hcr] at hrest hlength ⊢
    by_cases hc : c = '\x27'
    · subst hc
      refine ⟨rfl, fun m hm => ?_⟩
      cases hm
      have hpos := List.length_pos_iff.2 (hrest.tail (by decide)).ne_nil
      rw [List.length_cons] at hlength
      exact ⟨rfl, by omega⟩
    · simp [hc]
  · rw [List.drop_length]
    obtain ⟨d, r, rfl, rfl | rfl⟩ := ht <;> obtain ⟨d', r', rfl, rfl | rfl⟩ := ht' <;>
      exact ⟨rfl, fun m hm => by cases hm⟩

theorem any_getLast?_append {letter s : String} {c : Char} (hs : s.toList = [c]) (hc : isGap c = false) :
    (letter ++ s).toList.getLast?.any (!isGap ·) = true := by
  rw [String.toList_append, hs, List.getLast?_concat, Option.any_some, hc]
  rfl

theorem oneLength?_append {rules : LiteralRules} (hrules : rules.NoGaps) (hq : EndsInGap q)
    (ht : StartsText t) (ht' : StartsText t') :
    rules.oneLength? (q ++ t) = rules.oneLength? (q ++ t') ∧
      ∀ n, rules.oneLength? (q ++ t) = some n → n ≤ q.length := by
  obtain ⟨c, q, rfl⟩ := List.exists_cons_of_ne_nil hq.ne_nil
  by_cases hc : c = '\\'
  · subst hc
    have htail := hq.tail (by decide)
    obtain ⟨hescape, hle⟩ := escapeLength?_append hrules htail ht ht'
    obtain ⟨d, q, rfl⟩ := List.exists_cons_of_ne_nil htail.ne_nil
    simp only [List.cons_append] at hescape hle ⊢
    by_cases hd : d = 'x' ∨ d = 'u'
    · have hone (r : List Char) : rules.oneLength? ('\\' :: d :: r) =
          (rules.escapeLength? (d :: r)).map (· + 1) := by
        obtain rfl | rfl := hd <;> rfl
      rw [hone, hone, hescape]
      refine ⟨rfl, fun n hn => ?_⟩
      obtain ⟨k, hk, rfl⟩ := Option.map_eq_some_iff.1 hn
      have := hle k (hescape.trans hk)
      rw [List.length_cons]
      omega
    · obtain ⟨hx, hu⟩ := not_or.1 hd
      have hone (r : List Char) : rules.oneLength? ('\\' :: d :: r) =
          (if ['n', 'r', 't', '\\', '0', '\x27', '"'].contains d then some 1 else none).map (· + 1) := by
        simp [LiteralRules.oneLength?]
      rw [hone, hone]
      refine ⟨rfl, fun n hn => ?_⟩
      obtain ⟨k, hk, rfl⟩ := Option.map_eq_some_iff.1 hn
      split at hk
      · cases hk
        simp
      · cases hk
  · simp only [List.cons_append, LiteralRules.oneLength?, true_and]
    intro n hn
    split at hn
    · cases hn
      simp
    · cases hn

theorem characterLength?_append {rules : LiteralRules} (hrules : rules.NoGaps) (letter : String)
    (hquote : keepsGaps (letter ++ "'").toList) (hq : EndsInGap q) (ht : StartsText t)
    (ht' : StartsText t') :
    characterLength? rules letter (q ++ t) = characterLength? rules letter (q ++ t') ∧
      ∀ n, characterLength? rules letter (q ++ t) = some n → n < q.length := by
  unfold characterLength?
  dsimp only
  rw [startsWith_append hquote hq ht, startsWith_append hquote hq ht']
  by_cases hstart : startsWith q (letter ++ "'") = true
  · obtain ⟨hrest, hlength, hdrop⟩ :=
      hq.drop_of_startsWith hstart (any_getLast?_append rfl (by decide))
    obtain ⟨hone, hle⟩ := oneLength?_append hrules hrest ht ht'
    rw [hdrop, hdrop, ← hone]
    simp only [hstart]
    cases hn : rules.oneLength? (q.drop (letter ++ "'").length ++ t) with
    | none => exact ⟨rfl, fun _ hm => by cases hm⟩
    | some n =>
      obtain ⟨heq, hlt⟩ := quote_append hrest (hle n hn) ht ht' ((letter ++ "'").length + n + 1)
      refine ⟨heq, fun m hm => ?_⟩
      obtain ⟨rfl, hlt⟩ := hlt m hm
      omega
  · simp [hstart]

/-! ### Lines and comments -/

theorem lineLength_append (ht : StartsText t) (ht' : StartsText t') :
    ∀ q, lineLength (q ++ t) ≤ q.length → lineLength (q ++ t') = lineLength (q ++ t)
  | [], h => by
    obtain ⟨c, r, rfl, rfl | rfl⟩ := ht <;> simp [lineLength] at h
  | [c], h => by
    obtain ⟨d, r, rfl, hd⟩ := ht
    obtain ⟨d', r', rfl, hd'⟩ := ht'
    by_cases hline : c = '\n'
    · simp [lineLength, hline]
    · obtain rfl | rfl := hd <;> simp [lineLength] at h
  | c :: d :: q, h => by
    by_cases hline : c = '\n'
    · simp [lineLength, hline]
    · by_cases hreturn : c = '\r' ∧ d = '\n'
      · obtain ⟨rfl, rfl⟩ := hreturn
        simp [lineLength]
      · have hstep (r : List Char) : lineLength (c :: d :: r) = lineLength (d :: r) + 1 := by
          rw [lineLength]
          · simpa using hline
          · simpa using hreturn
        have hrest : lineLength (d :: q ++ t) ≤ (d :: q).length := by
          have h : lineLength (c :: d :: (q ++ t)) ≤ _ := h
          rw [hstep] at h
          exact Nat.le_of_succ_le_succ h
        have htail := lineLength_append ht ht' (d :: q) hrest
        rw [List.cons_append, List.cons_append] at htail
        rw [List.cons_append, List.cons_append, hstep, htail, ← hstep]
        rfl

theorem commentEnd?_append (t t' : List Char) : ∀ {depth n m : Nat} (q : List Char),
    commentEnd? depth n (q ++ t) = some m → m ≤ n + q.length → commentEnd? depth n (q ++ t') = some m
  | depth, n, m, [], h, hm => by
    have := le_commentEnd? h
    rw [List.length_nil] at hm
    omega
  | depth, n, m, [c], h, hm => by
    have := le_commentEnd? h
    rw [List.length_singleton] at hm
    omega
  | depth, n, m, c :: d :: q, h, hm => by
    simp only [List.length_cons] at hm
    by_cases hopen : c = '/' ∧ d = '*'
    · obtain ⟨rfl, rfl⟩ := hopen
      exact commentEnd?_append t t' q h (by omega)
    · by_cases hclose : c = '*' ∧ d = '/'
      · obtain ⟨rfl, rfl⟩ := hclose
        simp only [List.cons_append, commentEnd?] at h ⊢
        split at h
        · rename_i hlast
          rw [if_pos hlast]
          exact h
        · rename_i hlast
          rw [if_neg hlast]
          exact commentEnd?_append t t' q h (by omega)
      · have hstep (r : List Char) : commentEnd? depth n (c :: d :: r) =
            commentEnd? depth (n + 1) (d :: r) := by
          rw [not_and] at hopen hclose
          rw [commentEnd?]
          · simpa using hopen
          · simpa using hclose
        simp only [List.cons_append, hstep] at h ⊢
        exact commentEnd?_append t t' (d :: q) h (by simp only [List.length_cons]; omega)

/-! ### Texts -/

theorem le_textEnd? {rules : LiteralRules} {skip n m : Nat} {folding : Bool} {cs : List Char}
    (h : rules.textEnd? skip folding n cs = some m) : n + 1 ≤ m := by
  induction cs generalizing skip folding n with
  | nil => cases h
  | cons c r ih =>
    have hrest {skip' : Nat} {folding' : Bool}
        (h : rules.textEnd? skip' folding' (n + 1) r = some m) : n + 1 ≤ m :=
      Nat.le_of_succ_le (ih h)
    unfold LiteralRules.textEnd? at h
    split at h
    · exact hrest h
    split at h
    · split at h
      · exact hrest h
      · cases h
    split at h
    · exact hrest h
    split at h
    · cases h
      exact Nat.le_refl _
    split at h
    · split at h
      · exact hrest h
      · exact hrest h
      · split at h
        · exact hrest h
        · cases h
    split at h
    · exact hrest h
    · cases h

/-- What comes after a gap, if that is the last one, is read beyond it. -/
theorem endsInGap_of_le {c : Char} {q : List Char} {n m : Nat} (hq : EndsInGap (c :: q))
    (hm : m ≤ n + (c :: q).length) (h : q = [] → isGap c → n + 2 ≤ m) : EndsInGap q := by
  obtain ⟨rfl, hc⟩ | hq := endsInGap_cons.1 hq
  · have := h rfl hc
    rw [List.length_singleton] at hm
    omega
  · exact hq

theorem textEnd?_gap {rules : LiteralRules} {skip n m : Nat} {folding : Bool} {c : Char} {r : List Char}
    (hc : isGap c) (h : rules.textEnd? skip folding n (c :: r) = some m) : n + 2 ≤ m := by
  have hquote : (c == '"') = false := beq_of_isGap hc (by decide)
  have hescape : (c == '\\') = false := beq_of_isGap hc (by decide)
  unfold LiteralRules.textEnd? at h
  simp only [hquote, hescape, Bool.false_eq_true, if_false] at h
  split at h
  · exact le_textEnd? h
  split at h
  · split at h
    · exact le_textEnd? h
    · cases h
  split at h
  · exact le_textEnd? h
  split at h
  · exact le_textEnd? h
  · cases h

theorem eq_of_append_newline (hq : EndsInGap q) {u : List Char} (h : q ++ t = '\n' :: u) :
    ∃ u, q = '\n' :: u := by
  obtain ⟨c, q, rfl⟩ := List.exists_cons_of_ne_nil hq.ne_nil
  exact ⟨q, by rw [(List.cons.inj h).1]⟩

theorem eq_of_append_return (hq : EndsInGap q) (ht : StartsText t) {u : List Char}
    (h : q ++ t = '\r' :: '\n' :: u) : ∃ u, q = '\r' :: '\n' :: u := by
  obtain ⟨c, q, rfl⟩ := List.exists_cons_of_ne_nil hq.ne_nil
  obtain ⟨hc, h⟩ := List.cons.inj h
  cases q with
  | nil =>
    obtain ⟨d, r, rfl, rfl | rfl⟩ := ht <;> cases (List.cons.inj h).1
  | cons d q => exact ⟨q, by rw [hc, (List.cons.inj h).1]⟩

theorem textEnd?_append {rules : LiteralRules} (hrules : rules.NoGaps) (hq : EndsInGap q)
    (ht : StartsText t) (ht' : StartsText t') {skip n m : Nat} {folding : Bool}
    (h : rules.textEnd? skip folding n (q ++ t) = some m) (hm : m ≤ n + q.length) :
    rules.textEnd? skip folding n (q ++ t') = some m ∧ m < n + q.length := by
  induction q generalizing skip folding n with
  | nil => exact absurd rfl hq.ne_nil
  | cons c q ih =>
    have htail : EndsInGap q := endsInGap_of_le hq hm fun _ hc => textEnd?_gap hc h
    have hrest {skip' : Nat} {folding' : Bool}
        (h : rules.textEnd? skip' folding' (n + 1) (q ++ t) = some m) :
        rules.textEnd? skip' folding' (n + 1) (q ++ t') = some m ∧ m < n + (c :: q).length := by
      rw [List.length_cons] at hm ⊢
      obtain ⟨h', hlt⟩ := ih htail h (by omega)
      exact ⟨h', by omega⟩
    have hline (r : List Char) : (q ++ r).head? = q.head? := htail.head?_append r
    rw [List.cons_append] at h ⊢
    unfold LiteralRules.textEnd? at h ⊢
    split at h
    · rename_i hskip
      rw [if_pos hskip]
      exact hrest h
    rename_i hskip
    rw [if_neg hskip]
    split at h
    · rename_i hreturn
      rw [if_pos hreturn]
      rw [hline] at h ⊢
      split at h
      · rename_i hnext
        rw [if_pos hnext]
        exact hrest h
      · cases h
    rename_i hreturn
    rw [if_neg hreturn]
    split at h
    · rename_i hfold
      rw [if_pos hfold]
      exact hrest h
    rename_i hfold
    rw [if_neg hfold]
    split at h
    · rename_i hquote
      rw [if_pos hquote]
      cases h
      have hpos := List.length_pos_iff.2 htail.ne_nil
      exact ⟨rfl, by rw [List.length_cons]; omega⟩
    rename_i hquote
    rw [if_neg hquote]
    split at h
    · rename_i hescape
      rw [if_pos hescape]
      have hlength := (escapeLength?_append hrules htail ht ht').1
      split at h
      · rename_i hnext
        obtain ⟨u, rfl⟩ := eq_of_append_newline htail hnext
        exact hrest h
      · rename_i hnext
        obtain ⟨u, rfl⟩ := eq_of_append_return htail ht hnext
        exact hrest h
      · rename_i hnewline hreturn
        split
        · rename_i hnext
          obtain ⟨u, rfl⟩ := eq_of_append_newline htail hnext
          exact (hnewline (u ++ t) rfl).elim
        · rename_i hnext
          obtain ⟨u, rfl⟩ := eq_of_append_return htail ht' hnext
          exact (hreturn (u ++ t) rfl).elim
        · rw [← hlength]
          split at h
          · exact hrest h
          · cases h
    rename_i hescape
    rw [if_neg hescape]
    split at h
    · rename_i hplain
      rw [if_pos hplain]
      exact hrest h
    · cases h

theorem le_rawEnd? {isPlain : Char → Bool} {fence : List Char} {n m : Nat} {cs : List Char}
    (h : rawEnd? isPlain fence n cs = some m) : n + 1 ≤ m := by
  fun_induction rawEnd? isPlain fence n cs with
  | case1 => cases h
  | case2 n r ih =>
    have := ih h
    omega
  | case3 n c r _ hclose =>
    cases h
    omega
  | case4 => cases h
  | case5 n c r _ _ _ _ ih =>
    have := ih h
    omega
  | case6 => cases h

theorem rawEnd?_cons {isPlain : Char → Bool} {fence : List Char} {n : Nat} {c : Char} {r : List Char}
    (h : c = '\r' → ∀ u, r ≠ '\n' :: u) :
    rawEnd? isPlain fence n (c :: r) =
      if c == '"' && fence.isPrefixOf r then some (n + 1 + fence.length)
      else if c == '\r' then none
      else if isPlain c then rawEnd? isPlain fence (n + 1) r
      else none := by
  rw [rawEnd?]
  exact fun u hc => h hc u

theorem keepsGaps_hashes {fence : List Char} (h : ∀ x ∈ fence, x = '#') : keepsGaps fence := by
  match fence with
  | [] => rfl
  | [_] => rfl
  | c :: d :: r =>
    have hc : c = '#' := h c (by simp)
    subst hc
    have hgap : isGap '#' = false := by decide
    rw [keepsGaps, hgap, Bool.false_and, Bool.not_false, Bool.true_and]
    exact keepsGaps_hashes fun x hx => h x (List.mem_cons_of_mem _ hx)

/-- Hashes at the front of a text end before its last gap. -/
theorem EndsInGap.length_lt {fence : List Char} (hq : EndsInGap q) (hfence : ∀ x ∈ fence, x = '#')
    (h : fence.isPrefixOf q = true) : fence.length < q.length := by
  obtain ⟨r, rfl⟩ := List.isPrefixOf_iff_prefix.1 h
  cases r with
  | nil =>
    obtain ⟨front, c, heq, hc⟩ := hq
    rw [List.append_nil] at heq
    rw [hfence c (by simp [heq])] at hc
    cases hc
  | cons c r => simp

theorem rawEnd?_append {isPlain : Char → Bool} {fence : List Char} (hfence : ∀ x ∈ fence, x = '#')
    (ht : StartsText t) (ht' : StartsText t') : ∀ {n m : Nat} (q : List Char), EndsInGap q →
    rawEnd? isPlain fence n (q ++ t) = some m → m ≤ n + q.length →
    rawEnd? isPlain fence n (q ++ t') = some m ∧ m < n + q.length
  | n, m, [], hq, _, _ => absurd rfl hq.ne_nil
  | n, m, [c], hq, h, hm => by
    -- the gap is no quote, so the text ends beyond it
    obtain ⟨-, hc⟩ | hnil := endsInGap_cons.1 hq
    · have hquote : (c == '"') = false := beq_of_isGap hc (by decide)
      have hnext : c = '\r' → ∀ u, t ≠ '\n' :: u := by
        rintro - u rfl
        obtain ⟨d, r, heq, rfl | rfl⟩ := ht <;> cases (List.cons.inj heq).1
      rw [List.singleton_append, rawEnd?_cons hnext, hquote] at h
      rw [List.length_singleton] at hm
      simp only [Bool.false_and, Bool.false_eq_true, if_false] at h
      split at h
      · cases h
      split at h
      · have := le_rawEnd? h
        omega
      · cases h
    · exact absurd rfl hnil.ne_nil
  | n, m, c :: d :: q, hq, h, hm => by
    have htail : EndsInGap (d :: q) := by
      obtain ⟨hnil, -⟩ | htail := endsInGap_cons.1 hq
      · cases hnil
      · exact htail
    simp only [List.length_cons] at hm
    by_cases hbreak : c = '\r' ∧ d = '\n'
    · obtain ⟨rfl, rfl⟩ := hbreak
      simp only [List.cons_append, rawEnd?] at h ⊢
      cases q with
      | nil =>
        have := le_rawEnd? h
        rw [List.length_nil] at hm
        omega
      | cons e q =>
        have hq : EndsInGap (e :: q) := by
          obtain ⟨hnil, -⟩ | hq := endsInGap_cons.1 htail
          · cases hnil
          · exact hq
        obtain ⟨h', hlt⟩ := rawEnd?_append hfence ht ht' (e :: q) hq h (by omega)
        exact ⟨h', by simp only [List.length_cons] at hlt ⊢; omega⟩
    · have hnext (r : List Char) : c = '\r' → ∀ u, d :: (q ++ r) ≠ '\n' :: u := by
        rintro hc u heq
        exact hbreak ⟨hc, (List.cons.inj heq).1⟩
      have hclose (r : List Char) (hr : StartsText r) :
          fence.isPrefixOf (d :: (q ++ r)) = fence.isPrefixOf (d :: q) :=
        isPrefixOf_append (keepsGaps_hashes hfence) htail hr
      rw [List.cons_append, List.cons_append, rawEnd?_cons (hnext t), hclose t ht] at h
      rw [List.cons_append, List.cons_append, rawEnd?_cons (hnext t'), hclose t' ht']
      split at h
      · rename_i hend
        rw [if_pos hend]
        cases h
        have hlt := htail.length_lt hfence (Bool.and_eq_true _ _ ▸ hend).2
        exact ⟨rfl, by simp only [List.length_cons] at hlt ⊢; omega⟩
      rename_i hend
      rw [if_neg hend]
      split at h
      · cases h
      rename_i hreturn
      rw [if_neg hreturn]
      split at h
      · rename_i hplain
        rw [if_pos hplain]
        obtain ⟨h', hlt⟩ :=
          rawEnd?_append hfence ht ht' (d :: q) htail h (by rw [List.length_cons]; omega)
        exact ⟨h', by simp only [List.length_cons] at hlt ⊢; omega⟩
      · cases h

theorem rawLength?_append {isPlain : Char → Bool} (hq : EndsInGap q) (ht : StartsText t)
    (ht' : StartsText t') {n : Nat} (h : rawLength? isPlain (q ++ t) = some n) (hn : n ≤ q.length) :
    rawLength? isPlain (q ++ t') = some n ∧ n < q.length := by
  have hgap (c : Char) (h : isGap c) : (c == '#') = false := beq_of_isGap h (by decide)
  obtain ⟨c, r, hrest, hlength, -, happend⟩ := hq.run hgap
  have hfence (x : Char) (hx : x ∈ q.takeWhile (· == '#')) : x = '#' := by
    simpa using List.mem_takeWhile_imp hx
  simp only [rawLength?, happend] at h ⊢
  by_cases hquote : c = '"'
  · subst hquote
    simp only at h ⊢
    split at h
    · cases h
    · rename_i hshort
      rw [if_neg hshort]
      obtain ⟨h', hlt⟩ := rawEnd?_append hfence ht ht' r (hrest.tail (by decide)) h (by omega)
      exact ⟨h', by omega⟩
  · split at h
    · rename_i heq
      exact absurd (List.cons.inj heq).1 hquote
    · cases h

theorem quotedLength?_append {rules : LiteralRules} (hrules : rules.NoGaps) {letter : String}
    (hcooked : keepsGaps (letter ++ "\"").toList) (hraw : keepsGaps (letter ++ "r").toList)
    (hq : EndsInGap q) (ht : StartsText t) (ht' : StartsText t') {n : Nat}
    (h : quotedLength? rules letter (q ++ t) = some n) (hn : n ≤ q.length) :
    quotedLength? rules letter (q ++ t') = some n ∧ n < q.length := by
  unfold quotedLength? at h ⊢
  rw [startsWith_append hcooked hq ht, startsWith_append hraw hq ht] at h
  rw [startsWith_append hcooked hq ht', startsWith_append hraw hq ht']
  split at h
  · rename_i hstart
    obtain ⟨hrest, hle, hdrop⟩ := hq.drop_of_startsWith hstart (any_getLast?_append rfl (by decide))
    have hlength : (letter ++ "\"").length = letter.length + 1 := by
      rw [String.length_append]
      rfl
    rw [hlength] at hrest hle hdrop
    rw [if_pos hstart, hdrop]
    rw [hdrop] at h
    obtain ⟨h', hlt⟩ := textEnd?_append hrules hrest ht ht' h (by omega)
    exact ⟨h', by omega⟩
  rename_i hcooked
  rw [if_neg hcooked]
  split at h
  · rename_i hstart
    obtain ⟨hrest, hle, hdrop⟩ := hq.drop_of_startsWith hstart (any_getLast?_append rfl (by decide))
    have hlength : (letter ++ "r").length = letter.length + 1 := by
      rw [String.length_append]
      rfl
    rw [hlength] at hrest hle hdrop
    rw [if_pos hstart, hdrop]
    rw [hdrop] at h
    obtain ⟨k, hk, rfl⟩ := Option.map_eq_some_iff.1 h
    obtain ⟨hk', hlt⟩ := rawLength?_append hrest ht ht' hk (by omega)
    rw [hk']
    exact ⟨rfl, by omega⟩
  · cases h

end

end SqlLayout.Host
