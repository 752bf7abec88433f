import SqlLayout.Format
import SqlLayout.Proofs.Replacing

/-!
What a raw literal stands for. A text comes back from its raw literal unless the literal is none at all:
if a carriage return in the text has no line feed after it, or if a quote in it asks for more hashes than
a raw literal may have.
-/

namespace SqlLayout.Host

/-- By the rules of the language the characters are a raw literal with `n` hashes for the text: the text
reaches up to the first quote that `n` hashes follow, which ends the literal, and each carriage return
in it has a line feed after it. -/
structure Fenced (n : Nat) (literal text : List Char) : Prop where
  spelled : literal = 'r' :: (List.replicate n '#' ++ '"' :: (text ++ closing n))
  few : n ≤ 255
  first : ∀ q < text.length, ¬ closing n <+: (text ++ closing n).drop q
  returns : hasBareReturn text = false

/-- The characters are a raw literal for the text. -/
def Denotes (literal text : List Char) : Prop :=
  ∃ n, Fenced n literal text

variable {fence cs literal text : List Char} {n m p : Nat}

/-! ### Reading raw literals -/

/-- What is read as a raw text has no carriage return that stands alone. -/
theorem hasBareReturn_take_of_rawEnd? (h : rawEnd? (fun _ => true) fence n cs = some m) :
    ∀ p, m = n + p + 1 + fence.length → hasBareReturn (cs.take p) = false := by
  fun_induction rawEnd? (fun _ => true) fence n cs with
  | case1 => cases h
  | case2 n r ih =>
    rintro (_ | _ | p) hp
    · rfl
    · obtain ⟨q, hq, -⟩ := rawEnd?_eq_some h
      omega
    · exact ih h p (by omega)
  | case3 n c r _ hhere =>
    intro p hp
    have hzero : p = 0 := by
      have := Option.some.inj h
      omega
    rw [hzero]
    rfl
  | case4 => cases h
  | case5 n c r hnewline hopen hc _ ih =>
    rintro (_ | p) hp
    · rfl
    · rw [List.take_succ_cons, hasBareReturn_cons (by simpa using hc)]
      exact ih h p (by omega)
  | case6 => cases h

/-- A raw text is read up to the first place that closes it, if each carriage return in front of that
place has a line feed after it. -/
theorem rawEnd?_eq_some_iff : rawEnd? (fun _ => true) fence n cs = some m ↔
    ∃ p, m = n + p + 1 + fence.length ∧ '"' :: fence <+: cs.drop p ∧
      (∀ q < p, ¬ '"' :: fence <+: cs.drop q) ∧ hasBareReturn (cs.take p) = false := by
  constructor
  · intro h
    obtain ⟨p, hm, hclose, hfirst⟩ := rawEnd?_eq_some h
    exact ⟨p, hm, hclose, hfirst, hasBareReturn_take_of_rawEnd? h p hm⟩
  · rintro ⟨p, rfl, hclose, hfirst, hreturns⟩
    exact rawEnd?_of_first hclose hfirst hreturns

/-- The length of a raw literal is told by where its text ends. -/
theorem quotedLength?_raw (cs : List Char) :
    quotedLength? textRules "" ('r' :: cs) = (rawLength? (fun _ => true) cs).map (· + 0 + 1) := rfl

/-- After the first letter stand hashes, not too many, and a text that they close. -/
theorem rawLength?_eq_some_iff : rawLength? (fun _ => true) cs = some m ↔
    ∃ k body, k ≤ 255 ∧ cs = List.replicate k '#' ++ '"' :: body ∧
      rawEnd? (fun _ => true) (List.replicate k '#') (k + 1) body = some m := by
  constructor
  · intro h
    unfold rawLength? at h
    dsimp only at h
    split at h
    · rename_i body hbody
      split at h
      · cases h
      · rename_i hfew
        have hhashes : cs.takeWhile (· == '#') = List.replicate (cs.takeWhile (· == '#')).length '#' :=
          List.eq_replicate_of_mem fun c hc => by simpa using List.mem_takeWhile_imp hc
        refine ⟨_, body, Nat.le_of_not_lt hfew, ?_, hhashes ▸ h⟩
        rw [← hhashes, ← hbody]
        exact (List.prefix_iff_eq_append.1 (List.takeWhile_prefix _)).symm
    · cases h
  · rintro ⟨k, body, hfew, rfl, h⟩
    rw [rawLength?]
    simp only [takeWhile_hashes, List.length_replicate, List.drop_left' List.length_replicate,
      if_neg (Nat.not_lt.2 hfew), h]

/-- The text inside the fence is read up to its end. -/
theorem Fenced.rawEnd?_eq (h : Fenced n literal text) (k : Nat) :
    rawEnd? (fun _ => true) (List.replicate n '#') k (text ++ closing n) =
      some (k + text.length + 1 + n) := by
  have hend := rawEnd?_closing text k [] h.returns (by simpa using h.first)
  rwa [List.append_nil] at hend

/-- A raw literal for a text is what the lexer reads as one literal in quotes, with that text in it. -/
theorem denotes_iff_read : Denotes literal text ↔
    literal.head? = some 'r' ∧ quotedLength? textRules "" literal = some literal.length ∧
      (textOf (String.ofList literal)).toList = text := by
  constructor
  · rintro ⟨n, h⟩
    obtain rfl := h.spelled
    refine ⟨rfl, ?_, ?_⟩
    · have hlength := rawLength?_eq_some_iff.2 ⟨n, _, h.few, rfl, h.rawEnd?_eq (n + 1)⟩
      rw [quotedLength?_raw, hlength]
      simp [closing]
      omega
    · rw [textOf_eq, h.rawEnd?_eq, Option.getD_some]
      have hlength : 0 + text.length + 1 + n - 1 - n = text.length := by omega
      rw [hlength, List.take_left]
  · rintro ⟨hhead, hlength, rfl⟩
    obtain ⟨cs, rfl⟩ := List.head?_eq_some_iff.1 hhead
    rw [quotedLength?_raw, Option.map_eq_some_iff] at hlength
    obtain ⟨m, hm, hwhole⟩ := hlength
    obtain ⟨n, body, hfew, rfl, hend⟩ := rawLength?_eq_some_iff.1 hm
    obtain ⟨p, hp, hclose, hfirst, hreturns⟩ := rawEnd?_eq_some_iff.1 hend
    have hvalue := rawEnd?_of_first (n := 0) hclose hfirst hreturns
    simp only [List.length_replicate, List.length_cons, List.length_append] at hp hwhole hvalue
    have hbody : body.take p ++ closing n = body := by
      have hrest : closing n = body.drop p := by
        refine hclose.eq_of_length ?_
        simp
        omega
      rw [hrest, List.take_append_drop]
    have htext : 0 + p + 1 + n - 1 - n = p := by omega
    have hp : (body.take p).length = p := List.length_take_of_le (by omega)
    rw [textOf_eq, hvalue, Option.getD_some, htext]
    refine ⟨n, ⟨?_, hfew, ?_, hreturns⟩⟩
    · rw [hbody]
    · rw [hp, hbody]
      exact hfirst

/-! ### What is written -/

theorem closesAt_anti {text : List Char} (h : closesAt m text) (hle : n ≤ m) : closesAt n text := by
  obtain ⟨q, hq⟩ := (closesAt_iff m text).1 h
  refine (closesAt_iff n text).2 ⟨q, List.IsPrefix.trans ?_ hq⟩
  obtain ⟨k, rfl⟩ := Nat.exists_eq_add_of_le hle
  exact ⟨List.replicate k '#', by simp [closing, List.replicate_append_replicate]⟩

/-- Too few hashes close a text early. -/
theorem closesAt_of_lt_fenceFrom {fuel : Nat} (hle : n ≤ m) (hlt : m < fenceFrom text fuel n) :
    closesAt m text := by
  induction fuel generalizing n with
  | zero => exact absurd hlt (Nat.not_lt.2 hle)
  | succ fuel ih =>
    rw [fenceFrom] at hlt
    split at hlt
    · rename_i hclose
      obtain rfl | hlt' := Nat.eq_or_lt_of_le hle
      · exact hclose
      · exact ih hlt' hlt
    · exact absurd hlt (Nat.not_lt.2 hle)

theorem fenceSize_le_iff (hpos : 1 ≤ m) : fenceSize text ≤ m ↔ ¬ closing m <:+: text := by
  have hpart : closing m <:+: text ↔ closesAt m text := by
    rw [closesAt_iff]
    constructor
    · rintro ⟨front, back, rfl⟩
      exact ⟨front.length, by simp⟩
    · rintro ⟨q, hq⟩
      exact hq.isInfix.trans (List.drop_suffix q text).isInfix
  rw [hpart]
  constructor
  · intro hle hclose
    obtain ⟨q, hq⟩ := (closesAt_iff _ _).1 (closesAt_anti hclose hle)
    exact closing_absent text q hq
  · intro hopen
    by_contra hlt
    exact hopen (closesAt_of_lt_fenceFrom hpos (Nat.lt_of_not_le hlt))

/-- What is written for a text is a raw literal for that text and no other one, unless it is none: if a
carriage return stands alone in the text, or if a quote with as many hashes as there may be is in it. -/
theorem denotes_rawLiteral_iff (w : String) (text : List Char) :
    Denotes (rawLiteral w).toList text ↔
      text = w.toList ∧ hasBareReturn w.toList = false ∧ ¬ closing 255 <:+: w.toList := by
  rw [← fenceSize_le_iff (by decide)]
  constructor
  · rintro ⟨n, hspelled, hfew, -, hreturns⟩
    have hcs := List.cons.inj ((toList_rawLiteral w).symm.trans hspelled)
    obtain ⟨hn, hbody⟩ := hashes_unique (fun c hc => List.eq_of_mem_replicate hc) (by decide) (by decide)
      hcs.2
    obtain rfl : fenceSize w.toList = n := by simpa using congrArg List.length hn
    obtain rfl := List.append_cancel_right hbody
    exact ⟨rfl, hreturns, hfew⟩
  · rintro ⟨rfl, hreturns, hfew⟩
    refine ⟨fenceSize w.toList, toList_rawLiteral w, hfew, fun q hq hclose => ?_, hreturns⟩
    exact absurd hq (Nat.not_lt.2 (closing_prefix_le (closing_absent w.toList) hclose))

/-- A carriage return in a string of a statement comes into the raw literal, where none may be. -/
theorem rawLiteral_carries_return :
    ¬ ∀ (style : Style) (sql w : String), format style sql = .ok w →
      Denotes (rawLiteral w).toList w.toList := by
  intro h
  obtain ⟨n, -, -, -, hreturns⟩ := h {} "select 'a\rb'" "\nSELECT\n  'a\rb'\n" (by decide +kernel)
  exact absurd hreturns (by decide)

end SqlLayout.Host
