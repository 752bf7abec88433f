import SqlLayout.Proofs.Lexing
import SqlLayout.Sql.Parser

/-!
Parsers on tokens. What a parser reads hangs on the tokens alone, so each parser has a lemma that
tells which tokens it takes and which result it gives before the tokens that follow.
-/

namespace SqlLayout.Sql

/-- The token that comes next. -/
abbrev front (us : List Token) : Token :=
  us.headD .eof

/-- The keyword that comes next; empty when none does. -/
abbrev frontKey (us : List Token) : String :=
  Lexer.keyOf (front us)

theorem frontKey_ne {t : Token} {k : String} {us : List Token} (h : Lexer.keyOf t ≠ k) :
    frontKey (t :: us) ≠ k := h

namespace Spells

variable {ls rest : List Lexeme} {t : Token} {ts us : List Token}

theorem front_token (h : Spells ls ts) : (ls.headD .eof).token = front ts := by
  cases h with
  | nil => rfl
  | cons hl _ => exact hl.token

theorem front_key (h : Spells ls ts) : (ls.headD .eof).key = frontKey ts := by
  cases h with
  | nil => rfl
  | cons hl _ => exact hl.key

theorem append (h : Spells ls ts) (hrest : Spells rest us) : Spells (ls ++ rest) (ts ++ us) :=
  List.rel_append h hrest

theorem split (h : Spells ls (ts ++ us)) : ∃ ls₁ ls₂, ls = ls₁ ++ ls₂ ∧ Spells ls₁ ts ∧
    Spells ls₂ us := by
  induction ts generalizing ls with
  | nil => exact ⟨[], ls, rfl, .nil, h⟩
  | cons t ts ih =>
    cases h with
    | cons hl h =>
      obtain ⟨ls₁, ls₂, rfl, h₁, h₂⟩ := ih h
      exact ⟨_ :: ls₁, ls₂, rfl, .cons hl h₁, h₂⟩

theorem drop (h : Spells ls ts) (n : Nat) : Spells (ls.drop n) (ts.drop n) := by
  induction h generalizing n with
  | nil =>
    cases n <;> exact .nil
  | cons hl h ih =>
    cases n with
    | zero => exact .cons hl h
    | succ n => exact ih n

theorem suffix {left : List Lexeme} (h : Spells ls ts) (hleft : left <:+ ls) :
    ∃ us, Spells left us := by
  obtain ⟨n, rfl⟩ : ∃ n, left = ls.drop n := ⟨_, (List.suffix_iff_eq_drop.1 hleft)⟩
  exact ⟨_, h.drop n⟩

theorem front_ne (h : Spells ls ts) : front ts ≠ .symbol "[" := by
  cases h with
  | nil => exact fun h => by cases h
  | cons hl _ => exact hl.plain

end Spells

namespace Parser

variable {α β : Type}

/-- The parser takes the tokens `ts` before `us` and gives the result. -/
def Reads (p : Parser α) (ts us : List Token) (a : α) : Prop :=
  ∀ ls rest, Spells ls ts → Spells rest us → p .anywhere (ls ++ rest) = .ok a rest

/-- The parser fails before the tokens with a message. -/
def Fails (p : Parser α) (us : List Token) : Prop :=
  ∀ rest, Spells rest us → ∃ text left, p .anywhere rest = .error (.message text) left

variable {ts ts₁ ts₂ us : List Token} {a : α} {b : β}

/-! ### Sequences -/

theorem bind_run {p : Parser α} {f : α → Parser β} {scope : Scope} {ls rest : List Lexeme}
    (h : p scope ls = .ok a rest) : (p >>= f) scope ls = f a scope rest := by
  simp only [bind, ReaderT.bind, EStateM.bind, h]

theorem bind_error {p : Parser α} {f : α → Parser β} {scope : Scope} {ls rest : List Lexeme}
    {e : Fault} (h : p scope ls = .error e rest) : (p >>= f) scope ls = .error e rest := by
  simp only [bind, ReaderT.bind, EStateM.bind, h]

theorem Reads.pure (a : α) (us : List Token) : Reads (Pure.pure a : Parser α) [] us a := by
  intro ls rest hls _
  cases hls
  rfl

theorem Reads.bind {p : Parser α} {f : α → Parser β} (hp : Reads p ts₁ (ts₂ ++ us) a)
    (hf : Reads (f a) ts₂ us b) : Reads (p >>= f) (ts₁ ++ ts₂) us b := by
  intro ls rest hls hrest
  obtain ⟨ls₁, ls₂, rfl, h₁, h₂⟩ := hls.split
  rw [List.append_assoc, bind_run (hp ls₁ (ls₂ ++ rest) h₁ (h₂.append hrest))]
  exact hf ls₂ rest h₂ hrest

/-- A parser that takes nothing, and then another one. -/
theorem Reads.skip {p : Parser α} {f : α → Parser β} (hp : Reads p [] (ts ++ us) a)
    (hf : Reads (f a) ts us b) : Reads (p >>= f) ts us b :=
  Reads.bind hp hf

/-- A parser that takes one token, and then another one. -/
theorem Reads.take {t : Token} {p : Parser α} {f : α → Parser β} (hp : Reads p [t] (ts ++ us) a)
    (hf : Reads (f a) ts us b) : Reads (p >>= f) (t :: ts) us b :=
  Reads.bind hp hf

/-- A parser, and then one that takes nothing. -/
theorem Reads.last {p : Parser α} {f : α → Parser β} (hp : Reads p ts us a)
    (hf : Reads (f a) [] us b) : Reads (p >>= f) ts us b := by
  have hempty : Reads p ts ([] ++ us) a := hp
  have hbind := Reads.bind hempty hf
  rwa [List.append_nil] at hbind

theorem Reads.map {p : Parser α} {f : α → β} (hp : Reads p ts us a) :
    Reads (p >>= fun a => Pure.pure (f a)) ts us (f a) :=
  hp.last (Reads.pure _ us)

theorem Fails.bind {p : Parser α} {f : α → Parser β} (hp : Fails p us) : Fails (p >>= f) us := by
  intro rest hrest
  obtain ⟨text, left, h⟩ := hp rest hrest
  exact ⟨text, left, bind_error h⟩

theorem Fails.skip {p : Parser α} {f : α → Parser β} (hp : Reads p [] us a) (hf : Fails (f a) us) :
    Fails (p >>= f) us := by
  intro rest hrest
  obtain ⟨text, left, h⟩ := hf rest hrest
  exact ⟨text, left, (bind_run (hp [] rest .nil hrest)).trans h⟩

/-! ### Single tokens -/

theorem Reads.peek {f : Lexeme → Parser β}
    (h : ∀ l, l.token = front (ts ++ us) → l.key = frontKey (ts ++ us) → Reads (f l) ts us b) :
    Reads (Parser.peek >>= f) ts us b := by
  intro ls rest hls hrest
  have hall := hls.append hrest
  exact h _ hall.front_token hall.front_key ls rest hls hrest

theorem Reads.peekAt {n : Nat} {f : Lexeme → Parser β}
    (h : ∀ l, l.token = front ((ts ++ us).drop n) → l.key = frontKey ((ts ++ us).drop n) →
      Reads (f l) ts us b) : Reads (Parser.peekAt n >>= f) ts us b := by
  intro ls rest hls hrest
  have hall := (hls.append hrest).drop n
  have hget : (ls ++ rest).getD n .eof = ((ls ++ rest).drop n).headD .eof := by
    rw [List.getD_eq_getElem?_getD, List.headD_eq_head?_getD, List.head?_drop]
  change f ((ls ++ rest).getD n .eof) .anywhere (ls ++ rest) = _
  rw [hget]
  exact h _ hall.front_token hall.front_key ls rest hls hrest

theorem Reads.next {t : Token} {f : Lexeme → Parser β} (h : ∀ l : Lexeme, l.Is t → Reads (f l) ts us b) :
    Reads (Parser.next >>= f) (t :: ts) us b := by
  intro ls rest hls hrest
  cases hls with
  | cons hl hls => exact h _ hl _ rest hls hrest

theorem Reads.remaining {f : Nat → Parser β} (h : ∀ n, Reads (f n) ts us b) :
    Reads (Parser.remaining >>= f) ts us b :=
  fun ls rest hls hrest => h (ls ++ rest).length ls rest hls hrest

theorem Reads.get {f : List Lexeme → Parser β} (h : ∀ start, Reads (f start) ts us b) :
    Reads (MonadStateOf.get >>= f) ts us b :=
  fun ls rest hls hrest => h (ls ++ rest) ls rest hls hrest

theorem Reads.read {f : Scope → Parser β} (h : Reads (f .anywhere) ts us b) :
    Reads (MonadReader.read >>= f) ts us b :=
  fun ls rest hls hrest => h ls rest hls hrest

theorem reads_word?_of_ne {k : String} (h : frontKey us ≠ k) : Reads (word? k) [] us false := by
  intro ls rest hls hrest
  cases hls
  rw [← hrest.front_key] at h
  cases rest with
  | nil => rfl
  | cons l rest => exact if_neg h

theorem reads_word? {k : String} {t : Token} (h : Lexer.keyOf t = k) : Reads (word? k) [t] us true := by
  intro ls rest hls _
  obtain _ | ⟨hl, ⟨⟩⟩ := hls
  exact if_pos (hl.key.trans h)

theorem reads_symbol?_of_ne {s : String} (h : front us ≠ .symbol s) : Reads (symbol? s) [] us false := by
  intro ls rest hls hrest
  cases hls
  rw [← hrest.front_token] at h
  cases rest with
  | nil => rfl
  | cons l rest => exact if_neg h

theorem reads_symbol? (s : String) (us : List Token) : Reads (symbol? s) [.symbol s] us true := by
  intro ls rest hls _
  obtain _ | ⟨hl, ⟨⟩⟩ := hls
  exact if_pos hl.token

theorem reads_symbol (s : String) (us : List Token) : Reads (Parser.symbol s) [.symbol s] us () :=
  Reads.last (reads_symbol? s us) (Reads.pure () us)

theorem reads_word {k : String} {t : Token} (h : Lexer.keyOf t = k) : Reads (Parser.word k) [t] us () :=
  Reads.last (reads_word? h) (Reads.pure () us)

theorem reads_words?_of_ne {k : String} {ks : List String} (h : frontKey us ≠ k) :
    Reads (words? (k :: ks)) [] us false := by
  intro ls rest hls hrest
  cases hls
  rw [← hrest.front_key] at h
  refine if_neg ?_
  cases rest with
  | nil => simp
  | cons l rest =>
    intro heq
    injection heq with heq
    exact h heq

theorem reads_words?_of_ne_second {k k' : String} {ks : List String} {t : Token}
    (h : frontKey us ≠ k') : Reads (words? (k :: k' :: ks)) [] (t :: us) false := by
  intro ls rest hls hrest
  cases hls
  cases hrest with
  | cons hl hrest =>
    rw [← Spells.front_key hrest] at h
    refine if_neg ?_
    cases hrest with
    | nil => simp
    | cons hm hrest =>
      intro heq
      injection heq with _ heq
      injection heq with heq
      exact h heq

theorem reads_words? {ks : List String} (h : ts.map Lexer.keyOf = ks) :
    Reads (words? ks) ts us true := by
  intro ls rest hls _
  have hlength : ls.length = ks.length := by rw [hls.length_eq, ← h, List.length_map]
  have hkeys : ls.map (·.key) = ks := by
    rw [← h]
    clear h hlength
    induction hls with
    | nil => rfl
    | cons hl _ ih => rw [List.map_cons, List.map_cons, hl.key, ih]
  have htake : (ls ++ rest).take ks.length = ls := by rw [← hlength, List.take_left]
  have hdrop : (ls ++ rest).drop ks.length = rest := by rw [← hlength, List.drop_left]
  change (if ((ls ++ rest).take ks.length).map (·.key) = ks then _ else _) = _
  rw [htake, hdrop, if_pos hkeys]

theorem reads_oneOf?_of_not_mem {ks : List String} (h : frontKey us ∉ ks) :
    Reads (oneOf? ks) [] us none := by
  refine Reads.peek fun l _ hkey => ?_
  rw [if_neg (by rw [hkey]; exact fun hmem => h hmem.2)]
  exact Reads.pure none us

theorem reads_oneOf? {ks : List String} {t : Token} (h : Lexer.keyOf t ∈ ks) (hne : Lexer.keyOf t ≠ "") :
    Reads (oneOf? ks) [t] us (some (Lexer.keyOf t)) := by
  refine Reads.peek fun l _ hkey => ?_
  change l.key = Lexer.keyOf t at hkey
  rw [hkey, if_pos ⟨hne, h⟩]
  exact Reads.next fun m _ => Reads.pure _ us

theorem reads_nextIs (s : String) (us : List Token) :
    Reads (nextIs s) [] us (front us == .symbol s) := by
  refine Reads.peek fun l htoken _ => ?_
  rw [htoken]
  exact Reads.pure _ us

theorem reads_nextIsWord (k : String) (us : List Token) :
    Reads (nextIsWord k) [] us (frontKey us == k) := by
  refine Reads.peek fun l _ hkey => ?_
  rw [hkey]
  exact Reads.pure _ us

theorem reads_nextIsOneOf (ks : List String) (us : List Token) :
    Reads (nextIsOneOf ks) [] us (frontKey us != "" && ks.contains (frontKey us)) := by
  refine Reads.peek fun l _ hkey => ?_
  rw [hkey]
  exact Reads.pure _ us

/-! ### Choices -/

theorem Reads.wordElse {k : String} {p q : Parser α} (h : frontKey (ts ++ us) ≠ k)
    (hq : Reads q ts us a) : Reads (do if ← word? k then p else q) ts us a :=
  Reads.skip (reads_word?_of_ne h) hq

theorem Reads.wordThen {k : String} {t : Token} {p q : Parser α} (h : Lexer.keyOf t = k)
    (hp : Reads p ts us a) : Reads (do if ← word? k then p else q) (t :: ts) us a :=
  Reads.take (reads_word? h) hp

theorem Reads.symbolElse {s : String} {p q : Parser α} (h : front (ts ++ us) ≠ .symbol s)
    (hq : Reads q ts us a) : Reads (do if ← symbol? s then p else q) ts us a :=
  Reads.skip (reads_symbol?_of_ne h) hq

theorem Reads.symbolThen {s : String} {p q : Parser α} (hp : Reads p ts us a) :
    Reads (do if ← symbol? s then p else q) (.symbol s :: ts) us a :=
  Reads.take (reads_symbol? s _) hp

theorem Reads.wordsElse {k : String} {ks : List String} {p q : Parser α}
    (h : frontKey (ts ++ us) ≠ k) (hq : Reads q ts us a) :
    Reads (do if ← words? (k :: ks) then p else q) ts us a :=
  Reads.skip (reads_words?_of_ne h) hq

theorem Reads.wordsThen {ks : List String} {p q : Parser α} (ts₁ : List Token)
    (h : ts₁.map Lexer.keyOf = ks)
    (hp : Reads p ts₂ us a) : Reads (do if ← words? ks then p else q) (ts₁ ++ ts₂) us a :=
  Reads.bind (reads_words? h) hp

theorem reads_afterWord_none {k : String} {p : Parser α} (h : frontKey us ≠ k) :
    Reads (afterWord k p) [] us none :=
  Reads.wordElse h (Reads.pure none us)

theorem reads_afterWord {k : String} {t : Token} {p : Parser α} (h : Lexer.keyOf t = k)
    (hp : Reads p ts us a) : Reads (afterWord k p) (t :: ts) us (some a) :=
  Reads.wordThen h hp.map

theorem reads_parens {p : Parser α} (hp : Reads p ts (.symbol ")" :: us) a) :
    Reads (parens p) (.symbol "(" :: (ts ++ [.symbol ")"])) us a :=
  Reads.take (reads_symbol "(" _) (Reads.bind hp (Reads.last (reads_symbol ")" us) (Reads.pure a us)))

theorem Fails.attempt {p : Parser α} (h : Fails p us) : Reads (Parser.attempt p) [] us none := by
  intro ls rest hls hrest
  cases hls
  obtain ⟨text, left, hp⟩ := h rest hrest
  simp only [Parser.attempt, List.nil_append, hp]

theorem Reads.attempt {p : Parser α} (h : Reads p ts us a) :
    Reads (Parser.attempt p) ts us (some a) := by
  intro ls rest hls hrest
  simp only [Parser.attempt, h ls rest hls hrest]

theorem Reads.outcome {p : Parser α} (h : Reads p ts us a) :
    Reads (Parser.outcome p) ts us (.ok a) := by
  intro ls rest hls hrest
  simp only [Parser.outcome, h ls rest hls hrest]

theorem outcome_error {p : Parser α} {scope : Scope} {ls left : List Lexeme} {f : Fault}
    (h : p scope ls = .error f left) : outcome p scope ls = .ok (.error ⟨f, left⟩) ls := by
  simp only [outcome, h]

theorem fails_expected (what : String) (us : List Token) : Fails (expected what : Parser α) us :=
  fun rest _ => ⟨_, rest, rfl⟩

/-! ### Loops -/

/-- The loop takes the tokens `ts` before `us` and gives the result, however long it may go on. -/
def Turns (step : β → Parser (β ⊕ α)) (b : β) (ts us : List Token) (a : α) : Prop :=
  ∀ ls rest, Spells ls ts → Spells rest us → ∀ fuel, (ls ++ rest).length < fuel →
    loop step fuel b .anywhere (ls ++ rest) = .ok a rest

section

variable {step : β → Parser (β ⊕ α)}

theorem Turns.done (h : Reads (step b) ts us (.inr a)) : Turns step b ts us a := by
  intro ls rest hls hrest fuel hfuel
  cases fuel with
  | zero => cases hfuel
  | succ fuel => exact bind_run (h ls rest hls hrest)

theorem Turns.turn {b' : β} (ts₁ : List Token) (h : Reads (step b) ts₁ (ts₂ ++ us) (.inl b'))
    (hne : ts₁ ≠ []) (hrest : Turns step b' ts₂ us a) : Turns step b (ts₁ ++ ts₂) us a := by
  intro ls rest hls hus fuel hfuel
  obtain ⟨ls₁, ls₂, rfl, h₁, h₂⟩ := hls.split
  cases fuel with
  | zero => cases hfuel
  | succ fuel =>
    have hlength : ls₁.length ≠ 0 := by
      rw [h₁.length_eq]
      exact fun hnil => hne (List.eq_nil_of_length_eq_zero hnil)
    have hfewer : (ls₂ ++ rest).length < fuel := by
      simp only [List.length_append] at hfuel ⊢
      omega
    have hstep := h ls₁ (ls₂ ++ rest) h₁ (h₂.append hus)
    rw [← List.append_assoc] at hstep
    exact (bind_run hstep).trans (hrest ls₂ rest h₂ hus fuel hfewer)

theorem Turns.last {b' : β} (h : Reads (step b) ts us (.inl b')) (hne : ts ≠ [])
    (hdone : Turns step b' [] us a) : Turns step b ts us a := by
  have hempty : Reads (step b) ts ([] ++ us) (.inl b') := h
  have hturn := Turns.turn ts hempty hne hdone
  rwa [List.append_nil] at hturn

theorem Turns.reads (h : Turns step b ts us a) : Reads (repeatFrom b step) ts us a :=
  fun ls rest hls hrest => h ls rest hls hrest _ (Nat.lt_succ_self _)

end

/-- Phrases with separators between them, collected after those that were read before. -/
def Many (more : Parser Bool) (p : Parser α) (ts us : List Token) (as : List α) : Prop :=
  ∀ acc : List α, Turns (fun acc => do
    let a ← p
    if ← more then return .inl (a :: acc) else return .inr (a :: acc).reverse) acc ts us
      (acc.reverse ++ as)

section

variable {more : Parser Bool} {p : Parser α}

theorem Many.one (hp : Reads p ts us a) (hmore : Reads more [] us false) : Many more p ts us [a] := by
  intro acc
  refine Turns.done (Reads.last hp (Reads.skip hmore ?_))
  rw [List.reverse_cons]
  exact Reads.pure _ us

theorem Many.cons {t : Token} {as : List α} (hp : Reads p ts₁ (t :: (ts₂ ++ us)) a)
    (hmore : Reads more [t] (ts₂ ++ us) true) (hrest : Many more p ts₂ us as) :
    Many more p (ts₁ ++ t :: ts₂) us (a :: as) := by
  intro acc
  have hacc : acc.reverse ++ a :: as = (a :: acc).reverse ++ as := by simp
  rw [List.append_cons, hacc]
  refine Turns.turn (ts₁ ++ [t]) ?_ (by simp) (hrest (a :: acc))
  exact Reads.bind hp (Reads.last hmore (Reads.pure _ _))

theorem Many.reads {as : List α} (h : Many more p ts us as) : Reads (manyWith more p) ts us as :=
  (h []).reads

end

/-! ### Parsers that fail with a message only -/

/-- A parser that takes lexemes from the front and never meets the limit of nesting. -/
class Tame (p : Parser α) : Prop where
  suffix : ∀ {scope ts a rest}, p scope ts = .ok a rest → rest <:+ ts
  mild : ∀ {scope ts e rest}, p scope ts = .error e rest → ∃ text, e = .message text

instance (a : α) : Tame (pure a : Parser α) where
  suffix h := by
    cases h
    exact List.suffix_refl _
  mild h := by cases h

instance (p : Parser α) (f : α → Parser β) [Tame p] [∀ a, Tame (f a)] : Tame (p >>= f) where
  suffix {scope ts b rest} h := by
    cases hp : p scope ts with
    | error e s =>
      rw [bind_error hp] at h
      cases h
    | ok a s =>
      rw [bind_run hp] at h
      exact (Tame.suffix h).trans (Tame.suffix hp)
  mild {scope ts e rest} h := by
    cases hp : p scope ts with
    | error e s =>
      rw [bind_error hp] at h
      cases h
      exact Tame.mild hp
    | ok a s =>
      rw [bind_run hp] at h
      exact Tame.mild h

instance (text : String) : Tame (failWith text : Parser α) where
  suffix h := by cases h
  mild h := by
    cases h
    exact ⟨_, rfl⟩

instance : Tame peek where
  suffix h := by
    cases h
    exact List.suffix_refl _
  mild h := by cases h

instance : Tame next where
  suffix h := by
    cases h
    exact List.tail_suffix _
  mild h := by cases h

instance : Tame remaining where
  suffix h := by
    cases h
    exact List.suffix_refl _
  mild h := by cases h

instance (s : String) : Tame (symbol? s) where
  suffix {scope ts a rest} h := by
    cases ts with
    | nil =>
      cases h
      exact List.suffix_refl _
    | cons t ts =>
      by_cases ht : t.token = .symbol s
      · rw [symbol?, if_pos ht] at h
        cases h
        exact List.suffix_cons _ _
      · rw [symbol?, if_neg ht] at h
        cases h
        exact List.suffix_refl _
  mild {scope ts a rest} h := by
    cases ts with
    | nil => cases h
    | cons t ts =>
      by_cases ht : t.token = .symbol s
      · rw [symbol?, if_pos ht] at h
        cases h
      · rw [symbol?, if_neg ht] at h
        cases h

instance (c : Prop) [Decidable c] (p q : Parser α) [Tame p] [Tame q] :
    Tame (if c then p else q) := by
  split <;> infer_instance

instance (what : String) (t : Lexeme) : Tame (expectedBut what t : Parser α) :=
  inferInstanceAs (Tame (failWith _))

instance (what : String) : Tame (expected what : Parser α) :=
  inferInstanceAs (Tame (peek >>= fun t => expectedBut what t))

instance (step : β → Parser (β ⊕ α)) [∀ b, Tame (step b)] (fuel : Nat) (b : β) :
    Tame (loop step fuel b) := by
  induction fuel generalizing b with
  | zero => exact inferInstanceAs (Tame (expected _))
  | succ fuel ih =>
    have hcases (r : β ⊕ α) : Tame (match r with
        | .inl b => loop step fuel b
        | .inr a => (pure a : Parser α)) := by
      cases r with
      | inl b => exact ih b
      | inr a => exact inferInstanceAs (Tame (pure a))
    exact inferInstanceAs (Tame (step b >>= _))

instance (start : β) (step : β → Parser (β ⊕ α)) [∀ b, Tame (step b)] :
    Tame (repeatFrom start step) :=
  inferInstanceAs (Tame (remaining >>= fun n => loop step (n + 1) start))

instance (more : Parser Bool) (p : Parser α) [Tame more] [Tame p] : Tame (manyWith more p) := by
  unfold manyWith
  infer_instance

instance : Tame ident := by
  have (t : Lexeme) : Tame (match t.token with
      | .word s => (return ⟨s, none⟩ : Parser Ident)
      | .delimited s => return ⟨s, some '"'⟩
      | .quoted .plain s => return ⟨s, some '\x27'⟩
      | _ => expectedBut "identifier" t) := by
    split <;> infer_instance
  exact inferInstanceAs (Tame (next >>= _))

instance : Tame objectName :=
  inferInstanceAs (Tame (manyWith (symbol? ".") ident))

instance : Tame typeModifiers := by
  unfold typeModifiers
  have (acc : List String) (t : Lexeme) : Tame (match t.token with
      | .word _ | .delimited _ =>
          (return .inl (t.token.text :: acc) : Parser (List String ⊕ List String))
      | .number d _ => return .inl (d :: acc)
      | .quoted .plain s => return .inl (s :: acc)
      | .symbol "," => return .inl acc
      | .symbol ")" => return .inr acc.reverse
      | _ => expectedBut "type modifiers" t) := by
    split <;> infer_instance
  infer_instance

end Parser
end SqlLayout.Sql
