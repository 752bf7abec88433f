import Mathlib.Data.Nat.Find
import SqlLayout.Proofs.Relexing

/-!
A source with new literals is read as before. Each new literal is one token where the old one was, and
the tokens between them are the old ones at their new places.
-/

namespace SqlLayout.Host

/-! ### Where a literal ends -/

theorem head?_drop_takeWhile (p : Char → Bool) (cs : List Char) :
    (cs.drop (cs.takeWhile p).length).head?.any p = false := by
  have hdrop : cs.drop (cs.takeWhile p).length = cs.dropWhile p := by
    have h := congrArg (List.drop (cs.takeWhile p).length) (List.takeWhile_append_dropWhile (p := p) (l := cs))
    rw [List.drop_left] at h
    exact h.symm
  rw [hdrop]
  have hhead := List.head_dropWhile_not p (l := cs)
  cases h : cs.dropWhile p with
  | nil => rfl
  | cons c r =>
    simp only [h] at hhead
    simpa using hhead (List.cons_ne_nil c r)

theorem any_wordStart {o : Option Char} (h : o.any Text.isWordChar = false) :
    o.any Text.isWordStart = false := by
  cases o with
  | none => rfl
  | some c =>
    rw [Option.any_some, Bool.eq_false_iff] at h ⊢
    exact fun hstart => h (wordChar_of_wordStart hstart)

/-- No word follows the word that follows a literal. -/
theorem suffixLength_stop (cs : List Char) :
    (cs.drop (suffixLength cs)).head?.any Text.isWordStart = false := by
  cases cs with
  | nil => rfl
  | cons c r =>
    rw [suffixLength, plainWordLength?]
    split
    · rw [Option.getD_some, Nat.add_comm, List.drop_succ_cons]
      exact any_wordStart (head?_drop_takeWhile Text.isWordChar r)
    · rename_i hc
      simpa using hc

theorem eq_some_of_orElse {o o' : Option Nat} {n : Nat} (h : (o <|> o') = some n) :
    o = some n ∨ o' = some n := by
  cases o with
  | none => exact .inr h
  | some k => exact .inl h

/-- What the literals are, each with its word. -/
theorem literalLength?_cases {cs : List Char} {n : Nat} (h : literalLength? cs = some n) :
    (∃ k, (quotedLength? textRules "" cs = some k ∨ quotedLength? byteRules "b" cs = some k ∨
        quotedLength? cTextRules "c" cs = some k ∨ characterLength? byteRules "b" cs = some k ∨
        characterLength? textRules "" cs = some k) ∧ n = k + suffixLength (cs.drop k)) ∨
      ∃ digits ∈ [floatDigitsLength?, integerDigitsLength?], numberLength? digits cs = some n := by
  have hsuffixed {o : Option Nat} (ho : suffixed cs o = some n) :
      ∃ k, o = some k ∧ n = k + suffixLength (cs.drop k) := by
    obtain ⟨k, hk, rfl⟩ := Option.map_eq_some_iff.1 ho
    exact ⟨k, hk, rfl⟩
  rw [literalLength?_eq] at h
  obtain h | h := eq_some_of_orElse h
  · obtain ⟨k, hk, hn⟩ := hsuffixed h
    exact .inl ⟨k, .inl hk, hn⟩
  obtain h | h := eq_some_of_orElse h
  · obtain ⟨k, hk, hn⟩ := hsuffixed h
    exact .inl ⟨k, .inr (.inl hk), hn⟩
  obtain h | h := eq_some_of_orElse h
  · obtain ⟨k, hk, hn⟩ := hsuffixed h
    exact .inl ⟨k, .inr (.inr (.inl hk)), hn⟩
  obtain h | h := eq_some_of_orElse h
  · obtain ⟨k, hk, hn⟩ := hsuffixed h
    exact .inl ⟨k, .inr (.inr (.inr (.inl hk))), hn⟩
  obtain h | h := eq_some_of_orElse h
  · obtain ⟨k, hk, hn⟩ := hsuffixed h
    exact .inl ⟨k, .inr (.inr (.inr (.inr hk))), hn⟩
  obtain h | h := eq_some_of_orElse h
  · exact .inr ⟨_, by simp, h⟩
  · exact .inr ⟨_, by simp, h⟩

theorem numberLength?_eq_some {digits : List Char → Option Nat} {cs : List Char} {n : Nat}
    (h : numberLength? digits cs = some n) :
    (∃ k, digits cs = some k ∧ k ≤ n) ∧ (cs.drop n).head?.any Text.isWordChar = false := by
  obtain ⟨k, hk, h⟩ := Option.bind_eq_some_iff.1 h
  dsimp only at h
  split at h
  · cases h
  · rename_i hstop
    cases h
    exact ⟨⟨k, hk, Nat.le_add_right _ _⟩, Bool.eq_false_iff.2 hstop⟩

/-- No word follows a literal. -/
theorem literalLength?_stop {cs : List Char} {n : Nat} (h : literalLength? cs = some n) :
    (cs.drop n).head?.any Text.isWordStart = false := by
  obtain ⟨k, -, rfl⟩ | ⟨digits, -, h⟩ := literalLength?_cases h
  · rw [← List.drop_drop]
    exact suffixLength_stop (cs.drop k)
  · exact any_wordStart (numberLength?_eq_some h).2

/-! ### Lexemes are not empty -/

theorem quotedLength?_pos {rules : LiteralRules} {letter : String} {cs : List Char} {n : Nat}
    (h : quotedLength? rules letter cs = some n) : 1 ≤ n := by
  unfold quotedLength? at h
  split at h
  · have := le_textEnd? h
    omega
  split at h
  · obtain ⟨k, -, rfl⟩ := Option.map_eq_some_iff.1 h
    omega
  · cases h

theorem characterLength?_pos {rules : LiteralRules} {letter : String} {cs : List Char} {n : Nat}
    (h : characterLength? rules letter cs = some n) : 1 ≤ n := by
  unfold characterLength? at h
  dsimp only at h
  split at h
  · cases h
  · obtain ⟨k, -, h⟩ := Option.bind_eq_some_iff.1 h
    split at h
    · cases h
      omega
    · cases h

theorem floatDigitsLength?_pos {cs : List Char} {n : Nat} (h : floatDigitsLength? cs = some n) :
    1 ≤ n := by
  unfold floatDigitsLength? at h
  dsimp only at h
  split at h
  · cases h
  split at h
  · split at h
    · cases h
    split at h
    · split at h
      · cases h
        split <;> omega
      · cases h
        omega
    · cases h
      omega
  · split at h
    · obtain ⟨k, -, rfl⟩ := Option.map_eq_some_iff.1 h
      omega
    · cases h
  · cases h

theorem integerDigitsLength?_pos {cs : List Char} {n : Nat} (h : integerDigitsLength? cs = some n) :
    1 ≤ n := by
  unfold integerDigitsLength? at h
  dsimp only at h
  generalize (cs.drop _).takeWhile _ = digits at h
  split at h
  · cases h
  split at h
  · cases h
  split at h
  · rename_i hany
    cases h
    cases digits with
    | nil => cases hany
    | cons d r =>
      rw [List.length_cons]
      omega
  · cases h

theorem literalLength?_pos {cs : List Char} {n : Nat} (h : literalLength? cs = some n) : 1 ≤ n := by
  obtain ⟨k, hk, rfl⟩ | ⟨digits, hdigits, h⟩ := literalLength?_cases h
  · refine Nat.le_trans ?_ (Nat.le_add_right k _)
    obtain hk | hk | hk | hk | hk := hk
    · exact quotedLength?_pos hk
    · exact quotedLength?_pos hk
    · exact quotedLength?_pos hk
    · exact characterLength?_pos hk
    · exact characterLength?_pos hk
  · obtain ⟨⟨k, hk, hle⟩, -⟩ := numberLength?_eq_some h
    refine Nat.le_trans ?_ hle
    simp only [List.mem_cons, List.not_mem_nil, or_false] at hdigits
    obtain rfl | rfl := hdigits
    · exact floatDigitsLength?_pos hk
    · exact integerDigitsLength?_pos hk

theorem wordLength?_pos {cs : List Char} {n : Nat} (h : wordLength? cs = some n) : 1 ≤ n := by
  have hplain {cs : List Char} {n : Nat} (h : plainWordLength? cs = some n) : 1 ≤ n := by
    unfold plainWordLength? at h
    split at h
    · split at h
      · cases h
        exact Nat.le_add_right 1 _
      · cases h
    · cases h
  unfold wordLength? at h
  split at h
  · obtain ⟨k, -, h⟩ := Option.bind_eq_some_iff.1 h
    dsimp only at h
    split at h
    · cases h
    · cases h
      omega
  · exact hplain h

theorem leaf?_pos {offset n : Nat} {cs : List Char} {tree : Tree}
    (h : leaf? offset cs = some (tree, n)) : 1 ≤ n := by
  unfold leaf? at h
  split at h
  · rename_i hlength
    cases h
    exact literalLength?_pos hlength
  split at h
  · cases h
    exact Nat.le_refl 1
  split at h
  · cases h
  · obtain ⟨k, hk, heq⟩ := Option.map_eq_some_iff.1 h
    cases heq
    exact wordLength?_pos hk

theorem blankLength?_pos {cs : List Char} {n : Nat} (h : blankLength? cs = some n) : 1 ≤ n := by
  unfold blankLength? at h
  split at h
  · rename_i hstart
    simp only [Bool.and_eq_true] at hstart
    cases h
    obtain ⟨r, rfl⟩ := startsWith_cons rfl hstart.1.1
    exact lineLength_pos rfl
  split at h
  · cases h
    decide
  split at h
  · have := le_commentEnd? h
    omega
  split at h
  · split at h
    · cases h
      exact Nat.le_refl 1
    · cases h
  · cases h

/-- A lexeme takes a character. -/
theorem lexemes?_pos {offset n : Nat} {cs : List Char} {ls : List Lexeme}
    (h : lexemes? offset cs = some (ls, n)) : 1 ≤ n := by
  unfold lexemes? at h
  split at h
  · rename_i hblank
    cases h
    exact blankLength?_pos hblank
  split at h
  · rename_i hdoc
    split at h
    · cases h
    · cases h
      exact docLength?_pos hdoc
  split at h
  · cases h
    decide
  split at h
  · cases h
    exact Nat.le_refl 1
  · obtain ⟨⟨tree, k⟩, hleaf, heq⟩ := Option.map_eq_some_iff.1 h
    cases heq
    exact leaf?_pos hleaf

/-- A text literal is a lexeme by itself. -/
theorem lexemes?_of_mem {offset n start stop : Nat} {cs : List Char} {ls : List Lexeme} {text : String}
    (h : lexemes? offset cs = some (ls, n)) (htext : isText text)
    (hmem : .leaf (.literal text start stop) ∈ ls) :
    start = offset ∧ stop = offset + n ∧ ls = [.leaf (.literal text start stop)] ∧
      (cs.drop n).head?.any Text.isWordStart = false := by
  unfold lexemes? at h
  split at h
  · cases h
    cases hmem
  split at h
  · rename_i inner _
    split at h
    · cases h
    · cases h
      cases inner <;> simp [docTrees] at hmem
  split at h
  · cases h
    rw [List.mem_singleton] at hmem
    cases hmem
    rw [isText_faultyToken] at htext
    cases htext
  split at h
  · rename_i hl
    cases h
    obtain ⟨c, -, hc⟩ := Option.bind_eq_some_iff.1 hl
    obtain ⟨d, rfl | rfl⟩ := brackets_lookup hc <;> simp at hmem
  · obtain ⟨⟨tree, k⟩, hleaf, heq⟩ := Option.map_eq_some_iff.1 h
    cases heq
    rw [List.mem_singleton] at hmem
    cases hmem
    unfold leaf? at hleaf
    split at hleaf
    · rename_i hlength
      cases hleaf
      exact ⟨rfl, rfl, rfl, literalLength?_stop hlength⟩
    split at hleaf
    · rename_i hmark
      cases hleaf
      obtain ⟨c, joined, heq, -⟩ := mark?_eq_some hmark
      cases heq
    split at hleaf
    · cases hleaf
    · obtain ⟨w, -, heq⟩ := Option.map_eq_some_iff.1 hleaf
      cases heq

/-! ### The new literal -/

theorem hasBareReturn_cons {c : Char} (h : c ≠ '\r') (r : List Char) :
    hasBareReturn (c :: r) = hasBareReturn r := by
  rw [hasBareReturn]
  · rintro r' rfl
    exact absurd rfl h
  · exact h

theorem hasBareReturn_return {r : List Char} (h : r.head? ≠ some '\n') :
    hasBareReturn ('\r' :: r) = true := by
  match r with
  | [] => rfl
  | c :: r =>
    rw [hasBareReturn]
    rintro r' heq
    exact h (by rw [heq]; rfl)

theorem head?_take_of_ne {r : List Char} {c : Char} (h : r.head? ≠ some c) (p : Nat) :
    (r.take p).head? ≠ some c := by
  cases r <;> cases p <;> simp_all

theorem hasBareReturn_of_not_mem {cs : List Char} (h : '\r' ∉ cs) : hasBareReturn cs = false := by
  induction cs with
  | nil => rfl
  | cons c cs ih =>
    rw [List.mem_cons, not_or] at h
    rw [hasBareReturn_cons (Ne.symm h.1)]
    exact ih h.2

/-- A raw text is read up to the first place that closes it. -/
theorem rawEnd?_of_first {fence cs : List Char} {n p : Nat} (hclose : '"' :: fence <+: cs.drop p)
    (hfirst : ∀ q < p, ¬ '"' :: fence <+: cs.drop q) (hreturns : hasBareReturn (cs.take p) = false) :
    rawEnd? (fun _ => true) fence n cs = some (n + p + 1 + fence.length) := by
  have hhere {c : Char} {r : List Char} :
      (c == '"' && fence.isPrefixOf r) = true ↔ '"' :: fence <+: c :: r := by
    rw [Bool.and_eq_true, beq_iff_eq, List.isPrefixOf_iff_prefix, List.cons_prefix_cons, eq_comm]
  fun_induction rawEnd? (fun _ => true) fence n cs generalizing p with
  | case1 => simp at hclose
  | case2 n r ih =>
    obtain _ | _ | p := p
    · simp at hclose
    · simp at hclose
    · rw [ih hclose (fun q hq => hfirst (q + 2) (by omega)) hreturns]
      congr 1
      omega
  | case3 n c r _ hclosed =>
    obtain _ | p := p
    · rfl
    · exact absurd (hhere.1 hclosed) (hfirst 0 (Nat.succ_pos p))
  | case4 n c r hnewline hopen hc =>
    have hc : c = '\r' := by simpa using hc
    subst hc
    obtain _ | p := p
    · exact absurd (List.cons_prefix_cons.1 hclose).1 (by decide)
    · have hnext : r.head? ≠ some '\n' := fun hr => by
        obtain ⟨r, rfl⟩ := List.head?_eq_some_iff.1 hr
        exact hnewline r rfl rfl
      rw [List.take_succ_cons, hasBareReturn_return (head?_take_of_ne hnext p)] at hreturns
      cases hreturns
  | case5 n c r hnewline hopen hc _ ih =>
    obtain _ | p := p
    · exact absurd (hhere.2 hclose) hopen
    · rw [List.take_succ_cons, hasBareReturn_cons (by simpa using hc)] at hreturns
      rw [ih hclose (fun q hq => hfirst (q + 1) (by omega)) hreturns]
      congr 1
      omega
  | case6 => exact absurd rfl ‹_›

theorem rawEnd?_closing {n : Nat} (text : List Char) (k : Nat) (rest : List Char)
    (hreturns : hasBareReturn text = false)
    (hopen : ∀ q < text.length, ¬ closing n <+: (text ++ closing n ++ rest).drop q) :
    rawEnd? (fun _ => true) (List.replicate n '#') k (text ++ closing n ++ rest) =
      some (k + text.length + 1 + n) := by
  rw [List.append_assoc] at hopen ⊢
  have hclose : closing n <+: (text ++ (closing n ++ rest)).drop text.length := by
    rw [List.drop_left]
    exact List.prefix_append _ _
  have hfront : (text ++ (closing n ++ rest)).take text.length = text := List.take_left
  have hend := rawEnd?_of_first (n := k) hclose hopen (hfront.symm ▸ hreturns)
  rwa [List.length_replicate] at hend

/-- A raw literal ends where it says. -/
theorem rawEnd?_rawLiteral {text : String} (hreturn : '\r' ∉ text.toList) (k : Nat) (rest : List Char) :
    rawEnd? (fun _ => true) (List.replicate (fenceSize text.toList) '#') k
        (text.toList ++ closing (fenceSize text.toList) ++ rest) =
      some (k + text.toList.length + 1 + fenceSize text.toList) := by
  refine rawEnd?_closing text.toList k rest (hasBareReturn_of_not_mem hreturn) fun q hq hclose => ?_
  rw [List.append_assoc] at hclose
  have hle := closing_prefix_le (closing_absent text.toList) hclose
  omega

theorem takeWhile_hashes (n : Nat) (cs : List Char) :
    (List.replicate n '#' ++ '"' :: cs).takeWhile (· == '#') = List.replicate n '#' := by
  rw [List.takeWhile_append_of_pos fun c hc => by simpa using List.eq_of_mem_replicate hc]
  simp

theorem textOf_eq (n : Nat) (body : List Char) :
    (textOf (String.ofList ('r' :: (List.replicate n '#' ++ '"' :: body)))).toList =
      body.take ((rawEnd? (fun _ => true) (List.replicate n '#') 0 body).getD 0 - 1 - n) := by
  have hdrop : (List.replicate n '#' ++ '"' :: body).drop (n + 1) = body := by
    rw [← List.drop_drop, List.drop_left' List.length_replicate]
    rfl
  rw [textOf, String.toList_ofList]
  simp only [takeWhile_hashes, List.length_replicate, hdrop, String.toList_ofList]

/-- A raw literal stands for its text. -/
theorem textOf_rawLiteral {text : String} (hreturn : '\r' ∉ text.toList) :
    textOf (rawLiteral text) = text := by
  have hend := rawEnd?_rawLiteral hreturn 0 []
  rw [List.append_nil] at hend
  have hlength : 0 + text.toList.length + 1 + fenceSize text.toList - 1 - fenceSize text.toList =
      text.toList.length := by omega
  refine String.toList_injective ?_
  rw [← String.ofList_toList (s := rawLiteral text), toList_rawLiteral, textOf_eq, hend, Option.getD_some,
    hlength, List.take_left]

theorem length_rawLiteral (text : String) : (rawLiteral text).toList.length =
    fenceSize text.toList + 1 + text.toList.length + 1 + fenceSize text.toList + 1 := by
  simp [toList_rawLiteral, closing]
  omega

theorem rawLength?_rawLiteral {text : String} (hreturn : '\r' ∉ text.toList) (rest : List Char) :
    rawLength? textRules.isPlain (((rawLiteral text).toList ++ rest).drop 1) =
      if 255 < fenceSize text.toList then none else some ((rawLiteral text).toList.length - 1) := by
  have hdrop : ((rawLiteral text).toList ++ rest).drop 1 =
      List.replicate (fenceSize text.toList) '#' ++
        '"' :: (text.toList ++ closing (fenceSize text.toList) ++ rest) := by
    simp [toList_rawLiteral]
  have hend : rawEnd? textRules.isPlain (List.replicate (fenceSize text.toList) '#')
      (fenceSize text.toList + 1) (text.toList ++ closing (fenceSize text.toList) ++ rest) = _ :=
    rawEnd?_rawLiteral hreturn _ rest
  rw [hdrop, rawLength?]
  simp only [takeWhile_hashes, List.length_replicate, List.drop_left' List.length_replicate, hend,
    length_rawLiteral]
  rfl

theorem startsQuote_rawLiteral (text : String) (rest : List Char) :
    startsQuote ((rawLiteral text).toList ++ rest) = true := by
  obtain ⟨n, hn⟩ := Nat.exists_eq_add_of_le' (le_fenceFrom text.toList text.toList.length 1)
  have hsize : fenceSize text.toList = n + 1 := hn
  rw [toList_rawLiteral, hsize]
  cases n <;> rfl

/-- A raw literal is one lexeme, unless there are too many hashes around it. -/
theorem lexemes?_rawLiteral {text : String} (hreturn : '\r' ∉ text.toList) {rest : List Char}
    (hrest : rest.head?.any Text.isWordStart = false) (offset : Nat) :
    lexemes? offset ((rawLiteral text).toList ++ rest) =
      if 255 < fenceSize text.toList then none
      else some ([.leaf (.literal (rawLiteral text) offset (offset + (rawLiteral text).toList.length))],
        (rawLiteral text).toList.length) := by
  have hquote := startsQuote_rawLiteral text rest
  have hlength := rawLength?_rawLiteral hreturn rest
  have hpos := length_rawLiteral text
  have htake : ((rawLiteral text).toList ++ rest).take (rawLiteral text).toList.length =
      (rawLiteral text).toList := List.take_left
  have hdrop : ((rawLiteral text).toList ++ rest).drop (rawLiteral text).toList.length = rest :=
    List.drop_left
  obtain ⟨r, hr⟩ := rawLiteral_tail text
  generalize (rawLiteral text).toList.length = size at *
  have hleaf : lexemes? offset ((rawLiteral text).toList ++ rest) =
      (leaf? offset ((rawLiteral text).toList ++ rest)).map fun x => ([.leaf x.1], x.2) := by
    rw [hr]
    rfl
  have hcooked : quotedLength? textRules "" ((rawLiteral text).toList ++ rest) =
      (rawLength? textRules.isPlain (((rawLiteral text).toList ++ rest).drop 1)).map (· + 0 + 1) := by
    rw [hr]
    rfl
  have hothers : quotedLength? byteRules "b" ((rawLiteral text).toList ++ rest) = none ∧
      quotedLength? cTextRules "c" ((rawLiteral text).toList ++ rest) = none := by
    rw [hr]
    exact ⟨rfl, rfl⟩
  have hsuffix : suffixLength rest = 0 := by
    cases rest with
    | nil => rfl
    | cons c r => simp_all [suffixLength, plainWordLength?]
  rw [hleaf, leaf?_of_startsQuote hquote, literalLength?_of_startsQuote hquote, hcooked, hothers.1,
    hothers.2, hlength]
  split
  · rfl
  · have hsize : size - 1 + 0 + 1 = size := by omega
    simp [suffixed, hsize, hdrop, hsuffix, htake, Option.orElse]

/-! ### New literals in a code -/

/-- The literal of a constant by its place in the code, and the one that takes its place. -/
def pieceOf (c : Constant × String) : Splice Char where
  start := c.1.start
  stop := c.1.stop
  new := (rawLiteral c.2).toList

/-- The code with the new literals. -/
def renewCode (l : List (Constant × String)) (code : List Char) : List Char :=
  replaceAll (l.map pieceOf) 0 code

/-- New texts for some of the literals of a code, in front of each a gap. -/
structure Renewable (code : List Char) (l : List (Constant × String)) : Prop where
  separate : Separate (l.map pieceOf)
  readable : ∀ c ∈ l, '\r' ∉ c.2.toList
  gap : ∀ c ∈ l, EndsInGap (code.take c.1.start)
  starts : ∀ c ∈ l, StartsText (code.drop c.1.start)
  stop_lt : ∀ c ∈ l, c.1.stop < code.length

/-- Some of the literals stand in front of a place, the others are lexemes from there on. -/
def Awaits (l : List (Constant × String)) (i : Nat) (ls : List Lexeme) : Prop :=
  ∀ c ∈ l, c.1.stop ≤ i ∨
    i ≤ c.1.start ∧ ∃ text, isText text ∧ .leaf (.literal text c.1.start c.1.stop) ∈ ls

/-- The first of the new literals from a place on. -/
theorem exists_next (l : List (Constant × String)) (i : Nat) :
    (∀ c ∈ l, c.1.start < i) ∨ ∃ c ∈ l, i ≤ c.1.start ∧ ∀ d ∈ l, d.1.start < i ∨ c.1.start ≤ d.1.start := by
  classical
  by_cases hex : ∃ s, ∃ c ∈ l, c.1.start = s ∧ i ≤ s
  · obtain ⟨c, hc, hstart, hi⟩ := Nat.find_spec hex
    refine .inr ⟨c, hc, hstart ▸ hi, fun d hd => ?_⟩
    obtain hlt | hle := Nat.lt_or_ge d.1.start i
    · exact .inl hlt
    · rw [hstart]
      exact .inr (Nat.find_min' hex ⟨d, hd, rfl, hle⟩)
  · refine .inl fun c hc => ?_
    by_contra hle
    exact hex ⟨_, c, hc, rfl, Nat.le_of_not_lt hle⟩

/-- A text literal is not in front of the lexemes that it belongs to. -/
theorem Lexed.le_start {code : List Char} {i : Nat} {ls : List Lexeme} (h : Lexed code i ls)
    {text : String} {start stop : Nat} (htext : isText text)
    (hmem : .leaf (.literal text start stop) ∈ ls) : i ≤ start := by
  induction h with
  | nil => cases hmem
  | cons hi hstep _ ih =>
    obtain hmem | hmem := List.mem_append.1 hmem
    · exact (lexemes?_of_mem hstep htext hmem).1.ge
    · have := ih hmem
      omega

/-- A literal is the next lexeme, or it is one that stands before or after it. -/
theorem Awaits.cases {code : List Char} {l : List (Constant × String)} {i n : Nat}
    {ls rest : List Lexeme} (h : Awaits l i (ls ++ rest))
    (hstep : lexemes? i (code.drop i) = some (ls, n)) (hrest : Lexed code (i + n) rest) :
    ∀ c ∈ l, (c.1.start = i ∧ c.1.stop = i + n ∧
        ∃ text, isText text ∧ .leaf (.literal text c.1.start c.1.stop) ∈ ls) ∨ c.1.stop ≤ i ∨
      i + n ≤ c.1.start ∧ ∃ text, isText text ∧ .leaf (.literal text c.1.start c.1.stop) ∈ rest := by
  intro c hc
  obtain hbefore | ⟨-, text, htext, hmem⟩ := h c hc
  · exact .inr (.inl hbefore)
  obtain hmem | hmem := List.mem_append.1 hmem
  · obtain ⟨hstart, hstop, -⟩ := lexemes?_of_mem hstep htext hmem
    exact .inl ⟨hstart, hstop, text, htext, hmem⟩
  · exact .inr (.inr ⟨hrest.le_start htext hmem, text, htext, hmem⟩)

theorem Awaits.rest {code : List Char} {l : List (Constant × String)} {i n : Nat}
    {ls rest : List Lexeme} (h : Awaits l i (ls ++ rest))
    (hstep : lexemes? i (code.drop i) = some (ls, n)) (hrest : Lexed code (i + n) rest) :
    Awaits l (i + n) rest := by
  intro c hc
  obtain ⟨-, hstop, -⟩ | hstop | hafter := h.cases hstep hrest c hc
  · exact .inl hstop.le
  · exact .inl (Nat.le_add_right_of_le hstop)
  · exact .inr hafter

namespace Renewable

variable {code : List Char} {l : List (Constant × String)}

/-- The new texts by their places. Places beyond the end of the code move along with it. -/
def renewal (h : Renewable code l) : Renewal where
  text? start := (l.find? (·.1.start == start)).map (·.2)
  move i := (renewCode l (code.take i)).length + (i - code.length)
  readable start text htext := by
    obtain ⟨c, hc, rfl⟩ := Option.map_eq_some_iff.1 htext
    exact textOf_rawLiteral (h.readable c (List.mem_of_find?_eq_some hc))

variable (h : Renewable code l)

include h

theorem apart {c d : Constant × String} (hc : c ∈ l) (hd : d ∈ l) (hne : d ≠ c) :
    d.1.stop < c.1.start ∨ c.1.stop < d.1.start :=
  have : Std.Symm fun a b : Constant × String => (pieceOf a).Apart (pieceOf b) := ⟨fun _ _ => Or.symm⟩
  (List.pairwise_map.1 h.separate.apart).forall hd hc hne

theorem start_lt {c : Constant × String} (hc : c ∈ l) : c.1.start < c.1.stop :=
  h.separate.proper (pieceOf c) (List.mem_map_of_mem hc)

theorem text?_of_mem {c : Constant × String} (hc : c ∈ l) : h.renewal.text? c.1.start = some c.2 := by
  have hfind : l.find? (·.1.start == c.1.start) = some c := by
    cases hd : l.find? (·.1.start == c.1.start) with
    | none =>
      rw [List.find?_eq_none] at hd
      exact absurd (beq_self_eq_true _) (hd c hc)
    | some d =>
      have hstart : d.1.start = c.1.start := by simpa using List.find?_some hd
      have hmem := List.mem_of_find?_eq_some hd
      by_cases hne : d = c
      · rw [hne]
      · have := h.apart hc hmem hne
        have := h.start_lt hc
        have := h.start_lt hmem
        omega
  exact congrArg (Option.map (·.2)) hfind

theorem text?_eq_none {i : Nat} (hi : ∀ c ∈ l, c.1.start ≠ i) : h.renewal.text? i = none := by
  have hfind : l.find? (·.1.start == i) = none := by simpa using hi
  exact congrArg (Option.map (·.2)) hfind

theorem move_eq (i : Nat) :
    h.renewal.move i = (renewCode l (code.take i)).length + (i - code.length) := rfl

theorem move_zero : h.renewal.move 0 = 0 := by
  simp [move_eq, renewCode, replaceAll]

/-- Places move by what stands between them. -/
theorem move_add {i : Nat} (hi : i ≤ code.length) (n : Nat) : h.renewal.move (i + n) =
    h.renewal.move i + (replaceAll (l.map pieceOf) i ((code.drop i).take n)).length +
      (i + n - code.length) := by
  rw [move_eq, move_eq, List.take_add, renewCode, replaceAll_append, List.length_take_of_le hi,
    Nat.zero_add, List.length_append, renewCode]
  omega

/-- Between the new literals, places keep their distances. -/
theorem move_outside {i n : Nat} (hi : i ≤ code.length)
    (hout : ∀ c ∈ l, c.1.stop ≤ i ∨ i + n ≤ c.1.start) :
    h.renewal.move (i + n) = h.renewal.move i + n := by
  have hkeep : replaceAll (l.map pieceOf) i ((code.drop i).take n) = (code.drop i).take n := by
    apply replaceAll_of_outside h.separate
    intro e he
    obtain ⟨c, hc, rfl⟩ := List.mem_map.1 he
    have := hout c hc
    have := List.length_take_le n (code.drop i)
    simp only [pieceOf]
    omega
  rw [h.move_add hi, hkeep, List.length_take, List.length_drop]
  omega

/-- The code from a place on. -/
theorem drop_renewCode {i : Nat} (hi : i ≤ code.length) :
    (renewCode l code).drop (h.renewal.move i) = replaceAll (l.map pieceOf) i (code.drop i) := by
  have hsplit : renewCode l code =
      renewCode l (code.take i) ++ replaceAll (l.map pieceOf) i (code.drop i) := by
    conv_lhs => rw [← List.take_append_drop i code]
    rw [renewCode, replaceAll_append, List.length_take_of_le hi, Nat.zero_add, renewCode]
  rw [hsplit, h.move_eq, Nat.sub_eq_zero_of_le hi, Nat.add_zero, List.drop_left]

theorem length_renewCode_le {i : Nat} (hi : code.length ≤ i) :
    (renewCode l code).length ≤ h.renewal.move i := by
  rw [h.move_eq, List.take_of_length_le hi]
  exact Nat.le_add_right _ _

theorem replaceAll_literal {c : Constant × String} (hc : c ∈ l) :
    replaceAll (l.map pieceOf) c.1.start ((code.drop c.1.start).take (c.1.stop - c.1.start)) =
        (rawLiteral c.2).toList ∧
      ((code.drop c.1.start).take (c.1.stop - c.1.start)).length = c.1.stop - c.1.start := by
  have hlt := h.start_lt hc
  have hstop := h.stop_lt c hc
  have hlength : ((code.drop c.1.start).take (c.1.stop - c.1.start)).length =
      c.1.stop - c.1.start := by
    rw [List.length_take, List.length_drop]
    omega
  refine ⟨replaceAll_piece h.separate (List.mem_map_of_mem hc) ?_, hlength⟩
  rw [hlength]
  exact Nat.add_sub_of_le hlt.le

/-- The new literal and what stands behind it. -/
theorem replaceAll_start {c : Constant × String} (hc : c ∈ l) :
    replaceAll (l.map pieceOf) c.1.start (code.drop c.1.start) =
        (rawLiteral c.2).toList ++ replaceAll (l.map pieceOf) c.1.stop (code.drop c.1.stop) ∧
      (replaceAll (l.map pieceOf) c.1.stop (code.drop c.1.stop)).head? = (code.drop c.1.stop).head? := by
  have hlt := h.start_lt hc
  have hstop := h.stop_lt c hc
  have hsplit := List.take_append_drop (c.1.stop - c.1.start) (code.drop c.1.start)
  obtain ⟨hpiece, hlength⟩ := h.replaceAll_literal hc
  constructor
  · conv_lhs => rw [← hsplit]
    rw [replaceAll_append, hpiece, hlength, List.drop_drop, Nat.add_sub_of_le hlt.le]
  · have hapart : ∀ f ∈ l.map pieceOf, f = pieceOf c ∨ f.Apart (pieceOf c) := by
      intro f hf
      by_cases hne : f = pieceOf c
      · exact .inl hne
      · exact .inr (h.separate.apart_of_ne (List.mem_map_of_mem hc) hf hne)
    obtain ⟨b, hb⟩ := replaceAll_drop_first h.separate hapart hlt hstop
    have hb : replaceAll (l.map pieceOf) c.1.stop (code.drop c.1.stop) = code[c.1.stop] :: b := hb
    rw [hb, List.drop_eq_getElem_cons hstop]
    rfl

/-- A new literal takes the place of the old lexeme, unless there are too many hashes around it. -/
theorem lexemes?_start {c : Constant × String} (hc : c ∈ l) {n : Nat} {ls : List Lexeme}
    (hls : lexemes? c.1.start (code.drop c.1.start) = some (ls, n)) {text : String}
    (htext : isText text) (hmem : .leaf (.literal text c.1.start c.1.stop) ∈ ls) :
    lexemes? (h.renewal.move c.1.start) ((renewCode l code).drop (h.renewal.move c.1.start)) =
        (if 255 < fenceSize c.2.toList then none
          else some (ls.map (Lexeme.renew h.renewal), (rawLiteral c.2).toList.length)) ∧
      h.renewal.move (c.1.start + n) = h.renewal.move c.1.start + (rawLiteral c.2).toList.length := by
  have hlt := h.start_lt hc
  have hstop := h.stop_lt c hc
  obtain ⟨-, hn, rfl, hnext⟩ := lexemes?_of_mem hls htext hmem
  obtain ⟨hcode, hhead⟩ := h.replaceAll_start hc
  have hmove : h.renewal.move (c.1.start + n) =
      h.renewal.move c.1.start + (rawLiteral c.2).toList.length := by
    have hsize : n = c.1.stop - c.1.start := by omega
    rw [h.move_add (by omega), hsize, (h.replaceAll_literal hc).1]
    omega
  rw [List.drop_drop, ← hn, ← hhead] at hnext
  refine ⟨?_, hmove⟩
  have hrenew : (Lexeme.leaf (.literal text c.1.start c.1.stop)).renew h.renewal =
      .leaf (.literal (rawLiteral c.2) (h.renewal.move c.1.start)
        (h.renewal.move c.1.start + (rawLiteral c.2).toList.length)) := by
    rw [Lexeme.renew, Tree.renew, Renewal.literal, if_pos htext, h.text?_of_mem hc, ← hmove, ← hn]
    rfl
  rw [h.drop_renewCode (by omega), hcode, lexemes?_rawLiteral (h.readable c hc) hnext, List.map_singleton,
    hrenew]

/-- The other lexemes are as before at their new places. -/
theorem lexemes?_outside {i n : Nat} (hi : i < code.length) {ls : List Lexeme}
    (hls : lexemes? i (code.drop i) = some (ls, n)) (hne : ∀ c ∈ l, c.1.start ≠ i)
    (hout : ∀ c ∈ l, c.1.stop ≤ i ∨ i + n ≤ c.1.start) :
    lexemes? (h.renewal.move i) ((renewCode l code).drop (h.renewal.move i)) =
        some (ls.map (Lexeme.renew h.renewal), n) ∧
      h.renewal.move (i + n) = h.renewal.move i + n := by
  have hmove := h.move_outside hi.le hout
  refine ⟨?_, hmove⟩
  have hzero : h.renewal.text? 0 = none := by
    refine h.text?_eq_none fun c hc hstart => ?_
    have hgap := h.gap c hc
    rw [hstart, List.take_zero] at hgap
    exact hgap.ne_nil rfl
  suffices hsame : lexemes? i ((renewCode l code).drop (h.renewal.move i)) = some (ls, n) from
    lexemes?_renew hzero h.move_zero hsame (h.text?_eq_none hne) hmove
  rw [h.drop_renewCode hi.le]
  obtain hnone | ⟨c, hc, hle, hfirst⟩ := exists_next l i
  · rw [replaceAll_of_outside h.separate, hls]
    intro e he
    obtain ⟨c, hc, rfl⟩ := List.mem_map.1 he
    have := hnone c hc
    have := hout c hc
    simp only [pieceOf]
    omega
  · have hlt : i < c.1.start := Nat.lt_of_le_of_ne hle (Ne.symm (hne c hc))
    have hstop := h.stop_lt c hc
    have hstart := h.start_lt hc
    have hlength : (code.take c.1.start).length = c.1.start := List.length_take_of_le (by omega)
    have hsplit : code.drop i = (code.take c.1.start).drop i ++ code.drop c.1.start := by
      conv_lhs => rw [← List.take_append_drop c.1.start code]
      exact List.drop_append_of_le_length (by omega)
    have hkeep : replaceAll (l.map pieceOf) i ((code.take c.1.start).drop i) =
        (code.take c.1.start).drop i := by
      apply replaceAll_of_outside h.separate
      intro e he
      obtain ⟨d, hd, rfl⟩ := List.mem_map.1 he
      have := hfirst d hd
      have := hout d hd
      simp only [pieceOf, List.length_drop]
      omega
    rw [hsplit, replaceAll_append, hkeep, List.length_drop, hlength, Nat.add_sub_of_le hle,
      (h.replaceAll_start hc).1]
    rw [hsplit] at hls
    refine lexemes?_append ((h.gap c hc).drop (by omega)) (h.starts c hc) ?_ hls ?_
    · exact (startsText_of_isText (isText_rawLiteral c.2)).append
    · have := hout c hc
      rw [List.length_drop]
      omega

theorem move_start_lt {c : Constant × String} (hc : c ∈ l) :
    h.renewal.move c.1.start < (renewCode l code).length := by
  have hlt := h.start_lt hc
  have hstop := h.stop_lt c hc
  by_contra hle
  have hdrop := h.drop_renewCode (i := c.1.start) (by omega)
  rw [List.drop_eq_nil_of_le (Nat.le_of_not_lt hle), (h.replaceAll_start hc).1] at hdrop
  exact rawLiteral_ne_nil c.2 (List.append_eq_nil_iff.1 hdrop.symm).1

/-- The lexeme at the new place of another one: none if its new literal has too many hashes around it,
else the old one with its new literal. -/
theorem lexemes?_renewCode {i n : Nat} (hi : i < code.length) {ls rest : List Lexeme}
    (hawaits : Awaits l i (ls ++ rest)) (hstep : lexemes? i (code.drop i) = some (ls, n))
    (hrest : Lexed code (i + n) rest) :
    (∃ c ∈ l, c.1.start = i ∧ 255 < fenceSize c.2.toList ∧
      lexemes? (h.renewal.move i) ((renewCode l code).drop (h.renewal.move i)) = none) ∨
    (∀ c ∈ l, c.1.start = i → fenceSize c.2.toList ≤ 255) ∧
      ∃ k, lexemes? (h.renewal.move i) ((renewCode l code).drop (h.renewal.move i)) =
          some (ls.map (Lexeme.renew h.renewal), k) ∧
        h.renewal.move (i + n) = h.renewal.move i + k := by
  have hcases := hawaits.cases hstep hrest
  by_cases hex : ∃ c ∈ l, c.1.start = i
  · obtain ⟨c, hc, rfl⟩ := hex
    obtain ⟨-, -, text, htext, hmem⟩ | hstop | ⟨hle, -⟩ := hcases c hc
    · obtain ⟨hnew, hmove⟩ := h.lexemes?_start hc hstep htext hmem
      by_cases hfence : 255 < fenceSize c.2.toList
      · rw [if_pos hfence] at hnew
        exact .inl ⟨c, hc, rfl, hfence, hnew⟩
      · rw [if_neg hfence] at hnew
        refine .inr ⟨fun d hd hstart => ?_, _, hnew, hmove⟩
        have htexts := (h.text?_of_mem hd).symm.trans (hstart ▸ h.text?_of_mem hc)
        rw [Option.some.inj htexts]
        exact Nat.le_of_not_lt hfence
    · exact absurd (h.start_lt hc) (Nat.not_lt.2 hstop)
    · have := lexemes?_pos hstep
      omega
  · have hne : ∀ c ∈ l, c.1.start ≠ i := fun c hc hstart => hex ⟨c, hc, hstart⟩
    refine .inr ⟨fun c hc hstart => absurd hstart (hne c hc), n, ?_⟩
    refine h.lexemes?_outside hi hstep hne fun c hc => ?_
    obtain ⟨hstart, -⟩ | hstop | ⟨hle, -⟩ := hcases c hc
    · exact absurd hstart (hne c hc)
    · exact .inl hstop
    · exact .inr hle

omit h in
/-- Nothing is no lexeme. -/
theorem lt_length_of_lexemes? {code : List Char} {i n offset : Nat} {ls : List Lexeme}
    (h : lexemes? offset (code.drop i) = some (ls, n)) : i < code.length := by
  by_contra hle
  rw [List.drop_eq_nil_of_le (Nat.le_of_not_lt hle)] at h
  cases h

/-- If no new literal has too many hashes, the lexemes are the old ones with the new literals. -/
theorem lexed {i : Nat} {ls : List Lexeme} (hls : Lexed code i ls) (hawaits : Awaits l i ls)
    (hfences : ∀ c ∈ l, fenceSize c.2.toList ≤ 255) :
    Lexed (renewCode l code) (h.renewal.move i) (ls.map (Lexeme.renew h.renewal)) := by
  induction hls with
  | nil hi => exact .nil (h.length_renewCode_le hi)
  | @cons i n ls rest hi hstep hrest ih =>
    obtain ⟨c, hc, -, hfence, -⟩ | ⟨-, k, hnew, hmove⟩ := h.lexemes?_renewCode hi hawaits hstep hrest
    · exact absurd (hfences c hc) (Nat.not_le.2 hfence)
    · rw [List.map_append]
      refine .cons (lt_length_of_lexemes? hnew) hnew ?_
      rw [← hmove]
      exact ih (hawaits.rest hstep hrest)

/-- If a new literal that comes has too many hashes, there are no lexemes. -/
theorem not_lexed {i : Nat} {ls : List Lexeme} (hls : Lexed code i ls) (hawaits : Awaits l i ls)
    {c : Constant × String} (hc : c ∈ l) (hstart : i ≤ c.1.start) (hfence : 255 < fenceSize c.2.toList)
    (ls' : List Lexeme) : ¬ Lexed (renewCode l code) (h.renewal.move i) ls' := by
  induction hls generalizing ls' with
  | @nil i hi =>
    have := h.start_lt hc
    have := h.stop_lt c hc
    omega
  | @cons i n ls rest hi hstep hrest ih =>
    obtain ⟨d, hd, hstart', -, hnone⟩ | ⟨hfences, k, hnew, hmove⟩ :=
      h.lexemes?_renewCode hi hawaits hstep hrest
    · have hlt := h.move_start_lt hd
      rw [hstart'] at hlt
      rintro (hle | ⟨-, hsome, -⟩)
      · exact absurd hlt (Nat.not_lt.2 hle)
      · rw [hnone] at hsome
        cases hsome
    · have hlt := lt_length_of_lexemes? hnew
      rintro (hle | ⟨-, hsome, hrest'⟩)
      · exact absurd hlt (Nat.not_lt.2 hle)
      · rw [hnew] at hsome
        cases hsome
        rw [← hmove] at hrest'
        refine ih (hawaits.rest hstep hrest) ?_ _ hrest'
        obtain ⟨hstart', -⟩ | hstop | ⟨hle, -⟩ := hawaits.cases hstep hrest c hc
        · exact absurd hfence (Nat.not_lt.2 (hfences c hc hstart'))
        · have := h.start_lt hc
          omega
        · exact hle

/-- What stands in front of all new literals stays. -/
theorem take_renewCode {n : Nat} (hn : ∀ c ∈ l, n ≤ c.1.start) : (renewCode l code).take n = code.take n := by
  have hkeep : replaceAll (l.map pieceOf) 0 (code.take n) = code.take n := by
    apply replaceAll_of_outside h.separate
    intro e he
    obtain ⟨c, hc, rfl⟩ := List.mem_map.1 he
    have := hn c hc
    have := List.length_take_le n code
    simp only [pieceOf]
    omega
  rw [renewCode]
  conv_lhs => rw [← List.take_append_drop n code]
  rw [replaceAll_append, hkeep]
  obtain hle | hlt := Nat.le_total n code.length
  · exact List.take_left' (List.length_take_of_le hle)
  · rw [List.drop_eq_nil_of_le hlt, replaceAll, List.append_nil, List.take_take, Nat.min_self]

/-- No literal is the first thing in a code. -/
theorem start_pos {c : Constant × String} (hc : c ∈ l) : 0 < c.1.start := by
  by_contra hzero
  have hgap := h.gap c hc
  rw [Nat.eq_zero_of_not_pos hzero, List.take_zero] at hgap
  exact hgap.ne_nil rfl

theorem head?_renewCode : (renewCode l code).head? = code.head? := by
  have hfirst := congrArg List.head? (h.take_renewCode (n := 1) fun c hc => h.start_pos hc)
  simpa [List.head?_take] using hfirst

/-- New literals make no beginning of an interpreter line. -/
theorem startsWith_renewCode (hstart : startsWith code "#!" = false) :
    startsWith (renewCode l code) "#!" = false := by
  rw [Bool.eq_false_iff, Ne, startsWith, List.isPrefixOf_iff_prefix, List.prefix_iff_eq_take] at hstart ⊢
  intro hnew
  have hhead : code.head? = some '#' := by
    rw [← h.head?_renewCode, ← List.take_append_drop 2 (renewCode l code)]
    exact congrArg (fun front => (front ++ (renewCode l code).drop 2).head?) hnew.symm
  refine hstart (hnew.trans (h.take_renewCode fun c hc => ?_))
  -- a hash is no gap, so the literal does not stand right behind it
  have hpos := h.start_pos hc
  by_contra hlt
  have hone : c.1.start = 1 := by
    have : c.1.start < 2 := Nat.not_le.1 hlt
    omega
  have hgap := h.gap c hc
  obtain ⟨r, rfl⟩ := List.head?_eq_some_iff.1 hhead
  rw [hone] at hgap
  obtain ⟨-, hhash⟩ | hnil := endsInGap_cons.1 hgap
  · cases hhash
  · exact hnil.ne_nil rfl

end Renewable

/-! ### Trees -/

/-- The lexemes of a text are found. -/
theorem Lexed.lexFrom_eq {code : List Char} {i : Nat} {ls : List Lexeme} (h : Lexed code i ls)
    {fuel : Nat} (hfuel : code.length ≤ i + fuel) (acc : List Lexeme) :
    lexFrom fuel i acc (code.drop i) = some (ls.reverse ++ acc) := by
  induction h generalizing fuel acc with
  | nil hi =>
    rw [List.drop_eq_nil_of_le hi, lexFrom]
    rfl
  | @cons i n ls rest hi hstep _ ih =>
    have hpos := lexemes?_pos hstep
    cases fuel with
    | zero => omega
    | succ fuel =>
      rw [lexFrom_step hi, hstep, List.reverse_append, List.append_assoc]
      exact ih (by omega) (ls.reverse ++ acc)

theorem groupLexemes_renew {m : Renewal} (outer : List (Delimiter × List Tree)) (trees : List Tree)
    (ls : List Lexeme) :
    groupLexemes (outer.map fun o => (o.1, renewTrees m o.2)) (renewTrees m trees)
        (ls.map (Lexeme.renew m)) = (groupLexemes outer trees ls).map (renewTrees m) := by
  have hreverse (ts : List Tree) : (renewTrees m ts).reverse = renewTrees m ts.reverse := by
    rw [renewTrees_eq_map, renewTrees_eq_map, List.map_reverse]
  induction ls generalizing outer trees with
  | nil => cases outer <;> simp [groupLexemes, hreverse]
  | cons l r ih =>
    cases l with
    | opening d => exact ih ((d, trees) :: outer) []
    | leaf t => exact ih outer (t :: trees)
    | closing d =>
      cases outer with
      | nil => rfl
      | cons o outer =>
        obtain ⟨e, before⟩ := o
        simp only [List.map_cons, Lexeme.renew, groupLexemes]
        split
        · rw [hreverse]
          exact ih outer (.group d trees.reverse :: before)
        · rfl

section

variable {code : List Char} {l : List (Constant × String)} {ls : List Lexeme} {ts : List Tree}

theorem trees?_of_lexed (hmark : code.head? ≠ some '\uFEFF') (hls : Lexed code 0 ls)
    (hts : groupLexemes [] [] ls = some ts) : trees? code = some ts := by
  have hstart : (code.head? == some '\uFEFF') = false := by simpa using hmark
  have hfuel : code.length ≤ 0 + code.length := by omega
  have hlex := hls.lexFrom_eq hfuel []
  rw [List.append_nil] at hlex
  rw [trees?, hstart, if_neg Bool.false_ne_true, hlex]
  exact (congrArg (groupLexemes [] []) ls.reverse_reverse).trans hts

/-- The trees of a code with new literals are the old ones with the new literals. -/
theorem Renewable.trees?_renewCode (h : Renewable code l) (hmark : code.head? ≠ some '\uFEFF')
    (hls : Lexed code 0 ls) (hts : groupLexemes [] [] ls = some ts) (hawaits : Awaits l 0 ls)
    (hfences : ∀ c ∈ l, fenceSize c.2.toList ≤ 255) :
    trees? (renewCode l code) = some (renewTrees h.renewal ts) := by
  have hnew := h.lexed hls hawaits hfences
  rw [h.move_zero] at hnew
  refine trees?_of_lexed (by rwa [h.head?_renewCode]) hnew ?_
  have hgroup := groupLexemes_renew (m := h.renewal) [] [] ls
  rw [hts] at hgroup
  exact hgroup

/-- With too many hashes around a new literal, there are no trees. -/
theorem Renewable.trees?_renewCode_eq_none (h : Renewable code l) (hmark : code.head? ≠ some '\uFEFF')
    (hls : Lexed code 0 ls) (hawaits : Awaits l 0 ls) {c : Constant × String} (hc : c ∈ l)
    (hfence : 255 < fenceSize c.2.toList) : trees? (renewCode l code) = none := by
  cases htrees : trees? (renewCode l code) with
  | none => rfl
  | some ts' =>
    obtain ⟨start, ls', hls', -, -, rfl | hhead⟩ := trees?_lexed htrees
    · have hnot := h.not_lexed hls hawaits hc (Nat.zero_le _) hfence ls'
      rw [h.move_zero] at hnot
      exact absurd hls' hnot
    · rw [h.head?_renewCode] at hhead
      exact absurd hhead hmark

end

end SqlLayout.Host
