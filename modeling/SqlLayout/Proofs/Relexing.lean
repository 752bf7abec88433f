import SqlLayout.Proofs.HostRenewal
import SqlLayout.Proofs.Lookahead

/-!
Reading a source with new literals into tokens. In front of a literal stands a gap, so the tokens there
are what they were; the new literal is one token; and the tokens behind it are read as before.
-/

namespace SqlLayout.Host

section

variable {q t t' : List Char}

/-! ### Literals -/

/-- The beginnings of texts in quotes. -/
def quoteStarts : List String :=
  ["\"", "r\"", "r#\"", "r##", "b\"", "br\"", "br#", "c\"", "cr\"", "cr#"]

/-- Whether a text in quotes starts here. -/
def startsQuote (cs : List Char) : Bool :=
  quoteStarts.any (startsWith cs)

theorem startsQuote_append (hq : EndsInGap q) (ht : StartsText t) :
    startsQuote (q ++ t) = startsQuote q := by
  have hkeeps : ∀ s ∈ quoteStarts, keepsGaps s.toList = true := by decide
  rw [Bool.eq_iff_iff, startsQuote, startsQuote, List.any_eq_true, List.any_eq_true]
  refine exists_congr fun s => and_congr_right fun hs => ?_
  rw [startsWith_append (hkeeps s hs) hq ht]

/-- What a text starts with, and the rest. -/
theorem exists_of_startsQuote {cs : List Char} (h : startsQuote cs = true) :
    ∃ s ∈ quoteStarts, ∃ r, cs = s.toList ++ r := by
  obtain ⟨s, hs, hstart⟩ := List.any_eq_true.1 h
  obtain ⟨r, hr⟩ := List.isPrefixOf_iff_prefix.1 hstart
  exact ⟨s, hs, r, hr.symm⟩

/-- Where a text in quotes starts there is no other literal. -/
theorem others_of_startsQuote {cs : List Char} (h : startsQuote cs = true) :
    characterLength? byteRules "b" cs = none ∧ characterLength? textRules "" cs = none ∧
      numberLength? floatDigitsLength? cs = none ∧ numberLength? integerDigitsLength? cs = none := by
  obtain ⟨s, hs, r, rfl⟩ := exists_of_startsQuote h
  simp only [quoteStarts, List.mem_cons, List.not_mem_nil, or_false] at hs
  obtain rfl | rfl | rfl | rfl | rfl | rfl | rfl | rfl | rfl | rfl := hs <;>
    exact ⟨rfl, rfl, rfl, rfl⟩

/-- Where a text in quotes starts there is no mark and no word. -/
theorem leaf?_of_startsQuote {offset : Nat} {cs : List Char} (h : startsQuote cs = true) :
    leaf? offset cs = (literalLength? cs).map fun n =>
      (.literal (String.ofList (cs.take n)) offset (offset + n), n) := by
  have hnone : mark? cs = none ∧ (literalStarts.any (startsWith cs) = true ∨ wordLength? cs = none) := by
    obtain ⟨s, hs, r, rfl⟩ := exists_of_startsQuote h
    simp only [quoteStarts, List.mem_cons, List.not_mem_nil, or_false] at hs
    obtain rfl | rfl | rfl | rfl | rfl | rfl | rfl | rfl | rfl | rfl := hs
    · exact ⟨rfl, .inr rfl⟩
    all_goals exact ⟨rfl, .inl rfl⟩
  rw [leaf?, hnone.1]
  cases literalLength? cs with
  | some n => rfl
  | none =>
    obtain hstart | hword := hnone.2
    · simp [hstart]
    · simp [hword]

theorem starts_of_rawLength? {isPlain : Char → Bool} {cs : List Char} {n : Nat}
    (h : rawLength? isPlain cs = some n) : ∃ s ∈ ["\"", "#\"", "##"], startsWith cs s = true := by
  cases cs with
  | nil => cases h
  | cons c r =>
    by_cases hc : c = '#'
    · subst hc
      cases r with
      | nil => cases h
      | cons d r =>
        by_cases hd : d = '#'
        · exact ⟨"##", by simp, by rw [hd]; rfl⟩
        · by_cases hd' : d = '"'
          · exact ⟨"#\"", by simp, by rw [hd']; rfl⟩
          · simp [rawLength?, hd, hd'] at h
    · by_cases hc' : c = '"'
      · exact ⟨"\"", by simp, by rw [hc']; rfl⟩
      · simp [rawLength?, hc, hc'] at h

theorem starts_of_quotedLength? {rules : LiteralRules} {letter : String} {cs : List Char} {n : Nat}
    (h : quotedLength? rules letter cs = some n) :
    ∃ s ∈ ["\"", "r\"", "r#\"", "r##"], startsWith cs (letter ++ s) = true := by
  unfold quotedLength? at h
  split at h
  · rename_i hstart
    exact ⟨"\"", by simp, hstart⟩
  split at h
  · rename_i hstart
    obtain ⟨k, hk, -⟩ := Option.map_eq_some_iff.1 h
    obtain ⟨r, rfl⟩ := List.isPrefixOf_iff_prefix.1 hstart
    have hdrop : ((letter ++ "r").toList ++ r).drop (letter.length + 1) = r := by
      apply List.drop_left'
      rw [String.length_toList, String.length_append]
      rfl
    rw [hdrop] at hk
    obtain ⟨s, hs, hstart'⟩ := starts_of_rawLength? hk
    refine ⟨"r" ++ s, ?_, ?_⟩
    · simp only [List.mem_cons, List.not_mem_nil, or_false] at hs
      obtain rfl | rfl | rfl := hs <;> decide
    · obtain ⟨u, rfl⟩ := List.isPrefixOf_iff_prefix.1 hstart'
      rw [startsWith, List.isPrefixOf_iff_prefix]
      simp
  · cases h

theorem startsWith_trans {cs : List Char} {s s' : String} (h : startsWith cs s = true)
    (h' : startsWith s.toList s' = true) : startsWith cs s' = true := by
  rw [startsWith, List.isPrefixOf_iff_prefix] at *
  exact h'.trans h

theorem quotedLength?_of_not_startsQuote {cs : List Char} (h : startsQuote cs = false) :
    quotedLength? textRules "" cs = none ∧ quotedLength? byteRules "b" cs = none ∧
      quotedLength? cTextRules "c" cs = none := by
  have hnone {rules : LiteralRules} {letter : String}
      (hletter : ∀ s ∈ ["\"", "r\"", "r#\"", "r##"], startsQuote (letter ++ s).toList = true) :
      quotedLength? rules letter cs = none := by
    cases hn : quotedLength? rules letter cs with
    | none => rfl
    | some n =>
      obtain ⟨s, hs, hstart⟩ := starts_of_quotedLength? hn
      obtain ⟨s', hs', hstart'⟩ := List.any_eq_true.1 (hletter s hs)
      have htrue : startsQuote cs = true := List.any_eq_true.2 ⟨s', hs', startsWith_trans hstart hstart'⟩
      rw [h] at htrue
      cases htrue
  exact ⟨hnone (by decide), hnone (by decide), hnone (by decide)⟩

theorem head?_of_quotedLength? {rules : LiteralRules} {letter : String} {cs : List Char} {n : Nat}
    (h : quotedLength? rules letter cs = some n) :
    ∃ s ∈ ["\"", "r\"", "r#\"", "r##"], cs.head? = (letter ++ s).toList.head? := by
  obtain ⟨s, hs, hstart⟩ := starts_of_quotedLength? h
  obtain ⟨r, rfl⟩ := List.isPrefixOf_iff_prefix.1 hstart
  refine ⟨s, hs, ?_⟩
  rw [List.head?_append, Option.or_of_isSome]
  rw [List.isSome_head?, String.toList_append]
  simp only [List.mem_cons, List.not_mem_nil, or_false] at hs
  obtain rfl | rfl | rfl | rfl := hs <;> simp

/-- The letter in front of a text in quotes tells which one it is. -/
theorem quotedLength?_eq_none {rules rules' : LiteralRules} {letter letter' : String} {cs cs' : List Char}
    {n : Nat} (hhead : cs.head? = cs'.head?) (h : quotedLength? rules letter cs = some n)
    (hletters : ∀ s ∈ ["\"", "r\"", "r#\"", "r##"], ∀ s' ∈ ["\"", "r\"", "r#\"", "r##"],
      (letter ++ s).toList.head? ≠ (letter' ++ s').toList.head?) :
    quotedLength? rules' letter' cs' = none := by
  cases hn : quotedLength? rules' letter' cs' with
  | none => rfl
  | some k =>
    obtain ⟨s, hs, hfirst⟩ := head?_of_quotedLength? h
    obtain ⟨s', hs', hfirst'⟩ := head?_of_quotedLength? hn
    exact absurd (hfirst.symm.trans (hhead.trans hfirst')) (hletters s hs s' hs')

/-- A literal takes the word behind it. -/
def suffixed (cs : List Char) (n : Option Nat) : Option Nat :=
  n.map fun n => n + suffixLength (cs.drop n)

theorem literalLength?_eq (cs : List Char) : literalLength? cs =
    (suffixed cs (quotedLength? textRules "" cs) <|>
      suffixed cs (quotedLength? byteRules "b" cs) <|>
      suffixed cs (quotedLength? cTextRules "c" cs) <|>
      suffixed cs (characterLength? byteRules "b" cs) <|>
      suffixed cs (characterLength? textRules "" cs) <|>
      numberLength? floatDigitsLength? cs <|>
      numberLength? integerDigitsLength? cs) :=
  rfl

theorem suffixed_append (hq : EndsInGap q) {n : Nat} (hn : n < q.length) (t : List Char) :
    suffixed (q ++ t) (some n) = some (n + suffixLength (q.drop n)) := by
  rw [suffixed, Option.map_some, List.drop_append_of_le_length (Nat.le_of_lt hn),
    (suffixLength_append (hq.drop hn) t).1]

/-- The word behind a literal comes in addition. -/
theorem le_of_suffixed {cs : List Char} {k n : Nat} (h : suffixed cs (some k) = some n) : k ≤ n := by
  cases h
  exact Nat.le_add_right k _

theorem literalLength?_of_startsQuote {cs : List Char} (h : startsQuote cs = true) :
    literalLength? cs =
      (suffixed cs (quotedLength? textRules "" cs) <|>
        suffixed cs (quotedLength? byteRules "b" cs) <|>
        suffixed cs (quotedLength? cTextRules "c" cs)) := by
  obtain ⟨hbyte, hchar, hfloat, hinteger⟩ := others_of_startsQuote h
  rw [literalLength?_eq, hbyte, hchar, hfloat, hinteger]
  cases quotedLength? textRules "" cs <;> cases quotedLength? byteRules "b" cs <;>
    cases quotedLength? cTextRules "c" cs <;> rfl

theorem literalLength?_of_not_startsQuote {cs : List Char} (h : startsQuote cs = false) :
    literalLength? cs =
      (suffixed cs (characterLength? byteRules "b" cs) <|>
        suffixed cs (characterLength? textRules "" cs) <|>
        numberLength? floatDigitsLength? cs <|>
        numberLength? integerDigitsLength? cs) := by
  obtain ⟨htext, hbytes, hcText⟩ := quotedLength?_of_not_startsQuote h
  rw [literalLength?_eq, htext, hbytes, hcText]
  rfl

/-- Where no text in quotes starts, what stands behind does not matter. -/
theorem literalLength?_append_of_not_startsQuote (hq : EndsInGap q) (ht : StartsText t)
    (ht' : StartsText t') (h : startsQuote q = false) :
    literalLength? (q ++ t) = literalLength? (q ++ t') := by
  have hbyte := characterLength?_append noGaps_byteRules "b" (by decide) hq ht ht'
  have hchar := characterLength?_append noGaps_textRules "" (by decide) hq ht ht'
  have hfloat := numberLength?_append hq (floatDigitsLength?_append hq t)
  have hinteger := numberLength?_append hq (integerDigitsLength?_append hq t)
  have hfloat' := numberLength?_append hq (floatDigitsLength?_append hq t')
  have hinteger' := numberLength?_append hq (integerDigitsLength?_append hq t')
  have hsuffixed {o : Option Nat} (ho : ∀ n, o = some n → n < q.length) :
      suffixed (q ++ t) o = suffixed (q ++ t') o := by
    cases o with
    | none => rfl
    | some n => rw [suffixed_append hq (ho n rfl) t, suffixed_append hq (ho n rfl) t']
  rw [literalLength?_of_not_startsQuote (by rwa [startsQuote_append hq ht]),
    literalLength?_of_not_startsQuote (by rwa [startsQuote_append hq ht']), ← hbyte.1, ← hchar.1,
    hfloat.1, hinteger.1, hfloat'.1, hinteger'.1, hsuffixed hbyte.2, hsuffixed hchar.2]

theorem literalLength?_append_of_startsQuote (hq : EndsInGap q) (ht : StartsText t)
    (ht' : StartsText t') (h : startsQuote q = true) {n : Nat}
    (hlength : literalLength? (q ++ t) = some n) (hn : n ≤ q.length) :
    literalLength? (q ++ t') = some n := by
  have hhead : (q ++ t).head? = (q ++ t').head? := by rw [hq.head?_append, hq.head?_append]
  have hquoted {rules : LiteralRules} (hrules : rules.NoGaps) {letter : String}
      (hcooked : keepsGaps (letter ++ "\"").toList) (hraw : keepsGaps (letter ++ "r").toList) {k : Nat}
      (hk : quotedLength? rules letter (q ++ t) = some k)
      (hsuffix : suffixed (q ++ t) (some k) = some n) :
      suffixed (q ++ t') (quotedLength? rules letter (q ++ t')) = some n := by
    obtain ⟨hk', hlt⟩ := quotedLength?_append hrules hcooked hraw hq ht ht' hk
      (Nat.le_trans (le_of_suffixed hsuffix) hn)
    rw [hk', suffixed_append hq hlt t', ← suffixed_append hq hlt t, hsuffix]
  rw [literalLength?_of_startsQuote (by rwa [startsQuote_append hq ht])] at hlength
  rw [literalLength?_of_startsQuote (by rwa [startsQuote_append hq ht'])]
  cases htext : quotedLength? textRules "" (q ++ t) with
  | some k =>
    rw [htext] at hlength
    rw [hquoted noGaps_textRules (by decide) (by decide) htext hlength]
    rfl
  | none =>
    cases hbytes : quotedLength? byteRules "b" (q ++ t) with
    | some k =>
      rw [htext, hbytes] at hlength
      rw [quotedLength?_eq_none hhead hbytes (by decide),
        hquoted noGaps_byteRules (by decide) (by decide) hbytes hlength]
      rfl
    | none =>
      cases hcText : quotedLength? cTextRules "c" (q ++ t) with
      | some k =>
        rw [htext, hbytes, hcText] at hlength
        rw [quotedLength?_eq_none hhead hcText (by decide),
          quotedLength?_eq_none hhead hcText (by decide),
          hquoted noGaps_cTextRules (by decide) (by decide) hcText hlength]
        rfl
      | none =>
        rw [htext, hbytes, hcText] at hlength
        cases hlength

/-! ### Tokens -/

theorem startsWithMark_append (hq : EndsInGap q) (ht : StartsText t) :
    startsWithMark (q ++ t) = startsWithMark q := by
  rw [startsWithMark, startsWithMark, hq.head?_append, startsWith_append (by decide) hq ht,
    startsWith_append (by decide) hq ht]

theorem StartsText.not_mark (ht : StartsText t) : startsWithMark t = false := by
  obtain ⟨c, r, rfl, rfl | rfl⟩ := ht <;> rfl

theorem mark?_append (hq : EndsInGap q) (ht : StartsText t) (ht' : StartsText t') :
    mark? (q ++ t) = mark? (q ++ t') := by
  obtain ⟨c, r, rfl⟩ := List.exists_cons_of_ne_nil hq.ne_nil
  by_cases hc : c = '\x27'
  · subst hc
    have htail := hq.tail (by decide)
    obtain ⟨heq, hlt⟩ := wordLength?_append htail ht
    obtain ⟨heq', -⟩ := wordLength?_append htail ht'
    simp only [List.cons_append, mark?, heq, heq', startsWith_append (s := "r#") (by decide) htail ht,
      startsWith_append (s := "r#") (by decide) htail ht']
    cases hn : wordLength? r with
    | none => rfl
    | some n =>
      have hn := hlt n hn
      obtain ⟨d, u, hdu⟩ := List.exists_cons_of_ne_nil (htail.drop hn).ne_nil
      simp only [Option.bind_eq_bind, Option.bind_some,
        List.drop_append_of_le_length (Nat.le_of_lt hn), hdu, List.cons_append]
      by_cases hd : d = '\x27'
      · subst hd
        rfl
      · by_cases hd' : d = '#'
        · subst hd'
          rfl
        · simp [hd, hd']
  · have hstep (u : List Char) : mark? (c :: u) =
        if startsWithMark (c :: u) then some (.mark c (startsWithMark u)) else none := by
      simp [mark?]
    have hfront := startsWithMark_append hq ht
    have hfront' := startsWithMark_append hq ht'
    have hnext : startsWithMark (r ++ t) = startsWithMark (r ++ t') := by
      obtain ⟨rfl, -⟩ | hr := endsInGap_cons.1 hq
      · exact ht.not_mark.trans ht'.not_mark.symm
      · rw [startsWithMark_append hr ht, startsWithMark_append hr ht']
    rw [List.cons_append] at hfront hfront' ⊢
    rw [hstep, List.cons_append, hstep, hfront, hfront', hnext]

theorem literalStarts_append (hq : EndsInGap q) (ht : StartsText t) :
    literalStarts.any (startsWith (q ++ t)) = literalStarts.any (startsWith q) := by
  have hkeeps : ∀ s ∈ literalStarts, keepsGaps s.toList = true := by decide
  rw [Bool.eq_iff_iff, List.any_eq_true, List.any_eq_true]
  refine exists_congr fun s => and_congr_right fun hs => ?_
  rw [startsWith_append (hkeeps s hs) hq ht]

theorem leaf?_append (hq : EndsInGap q) (ht : StartsText t) (ht' : StartsText t') {offset n : Nat}
    {tree : Tree} (h : leaf? offset (q ++ t) = some (tree, n)) (hn : n ≤ q.length) :
    leaf? offset (q ++ t') = some (tree, n) := by
  have htake {k : Nat} (hk : k ≤ q.length) : (q ++ t).take k = (q ++ t').take k := by
    rw [List.take_append_of_le_length hk, List.take_append_of_le_length hk]
  by_cases hquote : startsQuote q = true
  · rw [leaf?_of_startsQuote (by rwa [startsQuote_append hq ht])] at h
    rw [leaf?_of_startsQuote (by rwa [startsQuote_append hq ht'])]
    obtain ⟨k, hk, heq⟩ := Option.map_eq_some_iff.1 h
    cases heq
    rw [literalLength?_append_of_startsQuote hq ht ht' hquote hk hn, htake hn]
    rfl
  · rw [Bool.not_eq_true] at hquote
    have hwords : wordLength? (q ++ t) = wordLength? (q ++ t') := by
      rw [(wordLength?_append hq ht).1, (wordLength?_append hq ht').1]
    unfold leaf? at h ⊢
    rw [← literalLength?_append_of_not_startsQuote hq ht ht' hquote, ← mark?_append hq ht ht',
      literalStarts_append hq ht', ← hwords]
    rw [literalStarts_append hq ht] at h
    split at h
    · cases h
      rw [htake hn]
    · split at h
      · exact h
      · split at h
        · cases h
        · rename_i hstart
          rw [if_neg hstart]
          obtain ⟨k, hk, heq⟩ := Option.map_eq_some_iff.1 h
          cases heq
          rw [hk, Option.map_some, htake hn]

/-! ### Lexemes -/

theorem blankLength?_append (hq : EndsInGap q) (ht : StartsText t) (ht' : StartsText t') {n : Nat}
    (h : blankLength? (q ++ t) = some n) (hn : n ≤ q.length) : blankLength? (q ++ t') = some n := by
  have hstart {s : String} (hs : keepsGaps s.toList) : startsWith (q ++ t') s = startsWith (q ++ t) s := by
    rw [startsWith_append hs hq ht, startsWith_append hs hq ht']
  unfold blankLength? at h ⊢
  rw [hstart (by decide), hstart (by decide), hstart (by decide), hstart (by decide),
    hstart (by decide), hstart (by decide), hstart (by decide), hstart (by decide), hstart (by decide)]
  split at h
  · rename_i hline
    rw [if_pos hline]
    cases h
    rw [lineLength_append ht ht' q hn]
  rename_i hline
  rw [if_neg hline]
  split at h
  · rename_i hempty
    rw [if_pos hempty]
    exact h
  rename_i hempty
  rw [if_neg hempty]
  split at h
  · rename_i hcomment
    rw [if_pos hcomment]
    exact commentEnd?_append t t' q h (by omega)
  · rename_i hcomment
    rw [if_neg hcomment]
    obtain ⟨c, r, rfl⟩ := List.exists_cons_of_ne_nil hq.ne_nil
    exact h

theorem docLength?_append (hq : EndsInGap q) (ht : StartsText t) (ht' : StartsText t') {n : Nat}
    {inner : Bool} (h : docLength? (q ++ t) = some (n, inner)) (hn : n ≤ q.length) :
    docLength? (q ++ t') = some (n, inner) := by
  have hstart {s : String} (hs : keepsGaps s.toList) : startsWith (q ++ t') s = startsWith (q ++ t) s := by
    rw [startsWith_append hs hq ht, startsWith_append hs hq ht']
  have hcomment {inner' : Bool} (h : (commentEnd? 0 0 (q ++ t)).map (·, inner') = some (n, inner)) :
      (commentEnd? 0 0 (q ++ t')).map (·, inner') = some (n, inner) := by
    obtain ⟨k, hk, heq⟩ := Option.map_eq_some_iff.1 h
    cases heq
    rw [commentEnd?_append t t' q hk (by omega)]
    rfl
  unfold docLength? at h ⊢
  rw [hstart (by decide), hstart (by decide), hstart (by decide), hstart (by decide),
    hstart (by decide), hstart (by decide)]
  split at h
  · rename_i hline
    rw [if_pos hline]
    cases h
    rw [lineLength_append ht ht' q hn]
  rename_i hline
  rw [if_neg hline]
  split at h
  · rename_i hinner
    rw [if_pos hinner]
    exact hcomment h
  rename_i hinner
  rw [if_neg hinner]
  split at h
  · rename_i houter
    rw [if_pos houter]
    cases h
    rw [lineLength_append ht ht' q hn]
  rename_i houter
  rw [if_neg houter]
  split at h
  · rename_i hblock
    rw [if_pos hblock]
    exact hcomment h
  · cases h

/-- A comment that is not closed is no lexeme. -/
theorem lexemes?_of_comment {offset : Nat} {cs : List Char} (h : startsWith cs "/*" = true)
    (hblank : blankLength? cs = none) (hdoc : docLength? cs = none) : lexemes? offset cs = none := by
  obtain ⟨r, rfl⟩ := List.isPrefixOf_iff_prefix.1 h
  rw [lexemes?, hblank, hdoc]
  rfl

/-- A comment that documents nothing, or is not closed. -/
theorem docLength?_eq_none {cs : List Char}
    (h : (startsWith cs "/*" && (!startsWith cs "/**" || startsWith cs "/***") &&
      !startsWith cs "/*!") = true) : docLength? cs = none := by
  simp only [Bool.and_eq_true] at h
  obtain ⟨⟨hstart, hblock⟩, hinner⟩ := h
  have hline {s : String} (hs : startsWith s.toList "//" = true) : startsWith cs s = false := by
    rw [Bool.eq_false_iff]
    intro hcs
    have hslash := startsWith_trans hcs hs
    obtain ⟨r, rfl⟩ := List.isPrefixOf_iff_prefix.1 hstart
    exact absurd hslash (by simp [startsWith, List.isPrefixOf])
  rw [docLength?, hline (by decide), hline (s := "///") (by decide)]
  rw [Bool.not_eq_true'] at hinner
  rw [hinner]
  cases hdoc : startsWith cs "/**" <;> simp_all

theorem blankLength?_none (hq : EndsInGap q) (ht : StartsText t) (ht' : StartsText t')
    (h : blankLength? (q ++ t) = none) :
    (startsWith (q ++ t) "/*" = true ∧ docLength? (q ++ t) = none) ∨ blankLength? (q ++ t') = none := by
  have hstart {s : String} (hs : keepsGaps s.toList) : startsWith (q ++ t') s = startsWith (q ++ t) s := by
    rw [startsWith_append hs hq ht, startsWith_append hs hq ht']
  by_cases hcomment : (startsWith (q ++ t) "/*" && (!startsWith (q ++ t) "/**" || startsWith (q ++ t) "/***") &&
      !startsWith (q ++ t) "/*!") = true
  · refine .inl ⟨?_, docLength?_eq_none hcomment⟩
    simp only [Bool.and_eq_true] at hcomment
    exact hcomment.1.1
  · refine .inr ?_
    unfold blankLength? at h ⊢
    rw [hstart (by decide), hstart (by decide), hstart (by decide), hstart (by decide),
      hstart (by decide), hstart (by decide), hstart (by decide), hstart (by decide), hstart (by decide)]
    rw [if_neg hcomment] at h ⊢
    split at h
    · cases h
    rename_i hline
    rw [if_neg hline]
    split at h
    · cases h
    rename_i hempty
    rw [if_neg hempty]
    obtain ⟨c, r, rfl⟩ := List.exists_cons_of_ne_nil hq.ne_nil
    exact h

theorem docLength?_none (hq : EndsInGap q) (ht : StartsText t) (ht' : StartsText t')
    (h : docLength? (q ++ t) = none) :
    startsWith (q ++ t) "/*" = true ∨ docLength? (q ++ t') = none := by
  have hstart {s : String} (hs : keepsGaps s.toList) : startsWith (q ++ t') s = startsWith (q ++ t) s := by
    rw [startsWith_append hs hq ht, startsWith_append hs hq ht']
  by_cases hcomment : startsWith (q ++ t) "/*" = true
  · exact .inl hcomment
  · have hfalse {s : String} (hs : startsWith s.toList "/*" = true) : startsWith (q ++ t) s = false := by
      rw [Bool.eq_false_iff]
      exact fun hcs => hcomment (startsWith_trans hcs hs)
    refine .inr ?_
    unfold docLength? at h ⊢
    rw [hstart (by decide), hstart (by decide), hstart (by decide), hstart (by decide),
      hstart (by decide), hstart (by decide)]
    rw [hfalse (s := "/*!") (by decide), hfalse (s := "/**") (by decide)] at h ⊢
    split at h
    · cases h
    rename_i hinner
    rw [if_neg hinner]
    simp only [Bool.false_eq_true, if_false, Bool.false_and] at h ⊢
    split at h
    · cases h
    rename_i houter
    rw [if_neg houter]

/-- A lexeme in front of a text literal is read without a look at that literal. -/
theorem lexemes?_append (hq : EndsInGap q) (ht : StartsText t) (ht' : StartsText t') {offset n : Nat}
    {ls : List Lexeme} (h : lexemes? offset (q ++ t) = some (ls, n)) (hn : n ≤ q.length) :
    lexemes? offset (q ++ t') = some (ls, n) := by
  cases hblank : blankLength? (q ++ t) with
  | some k =>
    rw [lexemes?, hblank] at h
    cases h
    rw [lexemes?, blankLength?_append hq ht ht' hblank hn]
  | none =>
    have hblank' : blankLength? (q ++ t') = none := by
      obtain ⟨hcomment, hdoc⟩ | hblank' := blankLength?_none hq ht ht' hblank
      · rw [lexemes?_of_comment hcomment hblank hdoc] at h
        cases h
      · exact hblank'
    cases hdoc : docLength? (q ++ t) with
    | some d =>
      obtain ⟨k, inner⟩ := d
      simp only [lexemes?, hblank, hdoc] at h
      split at h
      · cases h
      rename_i hreturn
      cases h
      rw [List.take_append_of_le_length hn] at hreturn
      simp only [lexemes?, hblank', docLength?_append hq ht ht' hdoc hn]
      rw [List.take_append_of_le_length hn, if_neg hreturn]
    | none =>
      have hdoc' : docLength? (q ++ t') = none := by
        obtain hcomment | hdoc' := docLength?_none hq ht ht' hdoc
        · rw [lexemes?_of_comment hcomment hblank hdoc] at h
          cases h
        · exact hdoc'
      simp only [lexemes?, hblank, hdoc, hblank', hdoc', hq.head?_append,
        startsWith_append (s := faultyToken) (by decide) hq ht,
        startsWith_append (s := faultyToken) (by decide) hq ht'] at h ⊢
      split at h
      · rename_i hfaulty
        rw [if_pos hfaulty]
        exact h
      rename_i hfaulty
      rw [if_neg hfaulty]
      split at h
      · exact h
      · obtain ⟨⟨tree, k⟩, hleaf, heq⟩ := Option.map_eq_some_iff.1 h
        cases heq
        rw [leaf?_append hq ht ht' hleaf hn]
        rfl

end

/-! ### Places -/

/-- The lexeme with its new literal. -/
def Lexeme.renew (m : Renewal) : Lexeme → Lexeme
  | .leaf t => .leaf (t.renew m)
  | l => l

section

variable {m : Renewal}

theorem Renewal.literal_of_none {start : Nat} (h : m.text? start = none) (old : String) :
    m.literal old start = old := by
  rw [Renewal.literal, h]
  split <;> rfl

theorem leaf?_renew {offset n : Nat} {cs : List Char} {tree : Tree}
    (h : leaf? offset cs = some (tree, n)) (hstart : m.text? offset = none)
    (hstop : m.move (offset + n) = m.move offset + n) :
    leaf? (m.move offset) cs = some (tree.renew m, n) := by
  unfold leaf? at h ⊢
  split at h
  · cases h
    rw [Tree.renew, Renewal.literal_of_none hstart, hstop]
  · split at h
    · rename_i hmark
      cases h
      obtain ⟨c, joined, rfl, -⟩ := mark?_eq_some hmark
      rfl
    · split at h
      · cases h
      · rename_i hword
        rw [if_neg hword]
        obtain ⟨k, hk, heq⟩ := Option.map_eq_some_iff.1 h
        cases heq
        rw [hk]
        rfl

/-- What an old lexeme is at its new place. -/
theorem lexemes?_renew (htext : m.text? 0 = none) (hzero : m.move 0 = 0) {offset n : Nat}
    {cs : List Char} {ls : List Lexeme} (h : lexemes? offset cs = some (ls, n))
    (hstart : m.text? offset = none) (hstop : m.move (offset + n) = m.move offset + n) :
    lexemes? (m.move offset) cs = some (ls.map (Lexeme.renew m), n) := by
  unfold lexemes? at h ⊢
  split at h
  · cases h
    rfl
  · split at h
    · rename_i inner _
      split at h
      · cases h
      · rename_i hreturn
        cases h
        rw [if_neg hreturn]
        cases inner <;>
          simp [docTrees, Lexeme.renew, Tree.renew, Renewal.literal_of_none htext, hzero]
    · split at h
      · rename_i hfaulty
        cases h
        rw [if_pos hfaulty]
        simp only [List.map_cons, List.map_nil, Lexeme.renew, Tree.renew,
          Renewal.literal_of_none hstart, hstop]
      · rename_i hfaulty
        rw [if_neg hfaulty]
        split at h
        · rename_i l hl
          cases h
          obtain ⟨c, -, hc⟩ := Option.bind_eq_some_iff.1 hl
          obtain ⟨d, rfl | rfl⟩ := brackets_lookup hc <;> rfl
        · obtain ⟨⟨t, k⟩, hleaf, heq⟩ := Option.map_eq_some_iff.1 h
          cases heq
          rw [leaf?_renew hleaf hstart hstop]
          rfl

end

/-! ### What stands in front of a literal -/

theorem commentEnd?_gap {depth n m : Nat} {cs : List Char} (h : commentEnd? depth n cs = some m) :
    EndsInGap (cs.take (m - n)) := by
  have hslash {r : List Char} {k : Nat} (hr : EndsInGap (r.take k)) (c : Char) :
      EndsInGap ((c :: r).take (k + 1)) := by
    rw [List.take_succ_cons, endsInGap_cons]
    exact .inr hr
  fun_induction commentEnd? depth n cs with
  | case1 depth n r ih =>
    have hle := le_commentEnd? h
    have hstep : m - n = (m - (n + 2)) + 1 + 1 := by omega
    rw [hstep]
    exact hslash (hslash (ih h) _) _
  | case2 depth n r hd =>
    cases h
    rw [Nat.add_sub_cancel_left]
    exact ⟨['*'], '/', rfl, by decide⟩
  | case3 depth n r hd ih =>
    have hle := le_commentEnd? h
    have hstep : m - n = (m - (n + 2)) + 1 + 1 := by omega
    rw [hstep]
    exact hslash (hslash (ih h) _) _
  | case4 depth n c r _ _ ih =>
    have hle := le_commentEnd? h
    have hstep : m - n = (m - (n + 1)) + 1 := by omega
    rw [hstep]
    exact hslash (ih h) _
  | case5 => cases h

/-- A line ends in front of a line break. -/
theorem not_startsText_drop_lineLength (cs : List Char) : ¬ StartsText (cs.drop (lineLength cs)) := by
  fun_induction lineLength cs with
  | case1 => rintro ⟨c, r, h, -⟩; cases h
  | case2 r => rintro ⟨c, r, h, rfl | rfl⟩ <;> cases h
  | case3 r => rintro ⟨c, r, h, rfl | rfl⟩ <;> cases h
  | case4 c r _ _ ih => exact ih

theorem blankLength?_gap {cs : List Char} {n : Nat} (h : blankLength? cs = some n)
    (ht : StartsText (cs.drop n)) : EndsInGap (cs.take n) := by
  unfold blankLength? at h
  split at h
  · cases h
    exact absurd ht (not_startsText_drop_lineLength cs)
  split at h
  · rename_i hstart
    cases h
    obtain ⟨r, rfl⟩ := List.isPrefixOf_iff_prefix.1 hstart
    exact ⟨['/', '*', '*'], '/', rfl, by decide⟩
  split at h
  · exact commentEnd?_gap h
  split at h
  · split at h
    · rename_i hc
      cases h
      exact ⟨[], _, rfl, by rw [isGap, hc, Bool.or_true]⟩
    · cases h
  · cases h

theorem docLength?_gap {cs : List Char} {n : Nat} {inner : Bool} (h : docLength? cs = some (n, inner))
    (ht : StartsText (cs.drop n)) : EndsInGap (cs.take n) := by
  have hcomment {inner' : Bool} (h : (commentEnd? 0 0 cs).map (·, inner') = some (n, inner)) :
      EndsInGap (cs.take n) := by
    obtain ⟨k, hk, heq⟩ := Option.map_eq_some_iff.1 h
    cases heq
    exact commentEnd?_gap hk
  unfold docLength? at h
  split at h
  · cases h
    exact absurd ht (not_startsText_drop_lineLength cs)
  split at h
  · exact hcomment h
  split at h
  · cases h
    exact absurd ht (not_startsText_drop_lineLength cs)
  split at h
  · exact hcomment h
  · cases h

/-- In front of a text literal that may be a value there is a gap. -/
theorem lexemes?_gap {offset n : Nat} {cs : List Char} {ls : List Lexeme}
    (h : lexemes? offset cs = some (ls, n)) (hopens : ∀ l, (flatten ls).getLast? = some l → l.opensValue)
    (ht : StartsText (cs.drop n)) : EndsInGap (cs.take n) := by
  unfold lexemes? at h
  split at h
  · rename_i hblank
    cases h
    exact blankLength?_gap hblank ht
  · split at h
    · rename_i hdoc
      split at h
      · cases h
      · cases h
        exact docLength?_gap hdoc ht
    · split at h
      · cases h
        cases hopens _ rfl
      · split at h
        · rename_i l hl
          cases h
          obtain ⟨c, hc, hl⟩ := Option.bind_eq_some_iff.1 hl
          obtain ⟨r, rfl⟩ := List.head?_eq_some_iff.1 hc
          obtain ⟨front, back, hmem, -⟩ := List.lookup_eq_some_iff.1 hl
          have hgap : ∀ x ∈ brackets, x.2.opensValue = true → isGap x.1 = true := by decide
          have hflat : flatten [l] = [l] := by
            obtain ⟨d, rfl | rfl⟩ := brackets_lookup hl <;> rfl
          exact ⟨[], c, rfl, hgap (c, l) (by simp [hmem]) (hopens l (by rw [hflat]; rfl))⟩
        · obtain ⟨⟨tree, k⟩, hleaf, heq⟩ := Option.map_eq_some_iff.1 h
          cases heq
          unfold leaf? at hleaf
          split at hleaf
          · cases hleaf
            cases hopens _ rfl
          · split at hleaf
            · rename_i hmark
              cases hleaf
              obtain ⟨c, joined, rfl, r, rfl⟩ := mark?_eq_some hmark
              have hc : c = '=' := by simpa [Lexeme.opensValue] using hopens (.leaf (.mark c joined)) rfl
              exact ⟨[], c, rfl, by rw [hc]; decide⟩
            · split at hleaf
              · cases hleaf
              · obtain ⟨w, -, heq⟩ := Option.map_eq_some_iff.1 hleaf
                cases heq
                cases hopens _ rfl

theorem EndsInGap.append {a b : List Char} (hb : EndsInGap b) : EndsInGap (a ++ b) := by
  obtain ⟨front, c, rfl, hc⟩ := hb
  exact ⟨a ++ front, c, by rw [List.append_assoc], hc⟩

theorem startsText_of_isText {text : String} (h : isText text) : StartsText text.toList := by
  rw [isText, Bool.or_eq_true, String.startsWith_string_iff, String.startsWith_string_iff] at h
  obtain ⟨r, hr⟩ | ⟨r, hr⟩ := h
  · exact ⟨'"', r, hr.symm, .inl rfl⟩
  · exact ⟨'r', r, hr.symm, .inr rfl⟩

theorem StartsText.append {a b : List Char} (ha : StartsText a) : StartsText (a ++ b) := by
  obtain ⟨c, r, rfl, hc⟩ := ha
  exact ⟨c, r ++ b, rfl, hc⟩

/-- A closed literal is a lexeme, and in front of it there is a gap. -/
theorem Lexed.closed {code : List Char} {offset : Nat} {ls : List Lexeme} (h : Lexed code offset ls)
    {before : Option Lexeme} (hbefore : before.any Lexeme.opensValue = true →
      StartsText (code.drop offset) → EndsInGap (code.take offset)) :
    ∀ s ∈ closedAfter before (flatten ls), EndsInGap (code.take s.start) ∧
      ∃ text, isText text ∧ .leaf (.literal text s.start s.stop) ∈ ls := by
  induction h generalizing before with
  | nil => exact fun s hs => absurd hs (List.not_mem_nil)
  | @cons offset n ls rest hoffset h _ ih =>
    intro s hs
    have hrest {before' : Option Lexeme} (hbefore' : before'.any Lexeme.opensValue = true →
        StartsText (code.drop (offset + n)) → EndsInGap (code.take (offset + n)))
        (hs : s ∈ closedAfter before' (flatten rest)) : EndsInGap (code.take s.start) ∧
          ∃ text, isText text ∧ .leaf (.literal text s.start s.stop) ∈ ls ++ rest := by
      obtain ⟨hgap, text, htext, hmem⟩ := ih hbefore' s hs
      exact ⟨hgap, text, htext, List.mem_append_right ls hmem⟩
    rw [flatten, List.flatMap_append] at hs
    cases lexemes?_chunk h with
    | literal =>
      obtain hs | hs := List.mem_append.1 hs
      · unfold closedBy at hs
        split at hs
        · rename_i hliteral _
          cases hliteral
          split at hs
          · rename_i hcloses
            rw [Bool.and_eq_true] at hcloses
            rw [List.mem_singleton] at hs
            subst hs
            have htext := (startsText_of_isText hcloses.1).append (b := (code.drop offset).drop n)
            rw [String.toList_ofList, List.take_append_drop] at htext
            exact ⟨hbefore hcloses.2 htext, _, hcloses.1, List.mem_cons_self⟩
          · cases hs
        · cases hs
      · exact hrest (by simp [Lexeme.opensValue]) hs
    | other ls spans mark =>
      have hs : s ∈ closedAfter before (flatten ls ++ flatten rest) := hs
      rw [spans] at hs
      refine hrest ?_ hs
      intro hopens ht
      rw [← List.drop_drop] at ht
      rw [List.take_add]
      cases hlast : (flatten ls).getLast? with
      | none =>
        exact (lexemes?_gap h (by simp [hlast]) ht).append
      | some l =>
        rw [hlast] at hopens
        refine (lexemes?_gap h ?_ ht).append
        intro l' hl'
        rw [hlast] at hl'
        cases hl'
        exact hopens

/-- The literals of the constants that are found are lexemes of the code, each with a gap in front. -/
theorem constants_lexed {source : String} {found : List Constant} {ls : List Lexeme} {trees : List Tree}
    (hfound : constants source = .ok found) (htrees : trees? (codeOf source) = some trees)
    (hflat : treeLexemes trees = flatten ls) {start : Nat} (hls : Lexed (codeOf source) start ls) :
    ∀ c ∈ found, EndsInGap ((codeOf source).take c.start) ∧
      ∃ text, isText text ∧ .leaf (.literal text c.start c.stop) ∈ ls := by
  intro c hc
  obtain ⟨trees', htrees', l, hperm, hsub⟩ := constants_spans hfound
  rw [htrees] at htrees'
  cases htrees'
  have hmem := hsub.subset (hperm.mem_iff.2 (List.mem_map_of_mem hc))
  rw [hflat] at hmem
  exact hls.closed (by simp) c.span hmem

end SqlLayout.Host
