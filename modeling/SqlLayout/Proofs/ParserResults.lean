import SqlLayout.Sql.Parser.Basic

/-!
Properties of what a parser gives: a parser that is put together from others gives what they let it give.
-/

namespace SqlLayout.Sql.Parser

variable {α β : Type} {P Q : α → Prop}

/-- Every result of the parser has the property. -/
def Gives (P : α → Prop) (p : Parser α) : Prop :=
  ∀ scope ts a rest, p scope ts = .ok a rest → P a

namespace Gives

theorem pure {a : α} (h : P a) : Gives P (Pure.pure a) := by
  rintro scope ts b rest ⟨⟩
  exact h

theorem bind {p : Parser α} {R : β → Prop} {f : α → Parser β} (h : Gives P p)
    (hf : ∀ a, P a → Gives R (f a)) : Gives R (p >>= f) := by
  intro scope ts b rest hb
  simp only [Bind.bind, ReaderT.bind, EStateM.bind] at hb
  split at hb
  · rename_i a left hp
    exact hf a (h scope ts a left hp) scope left b rest hb
  · cases hb

theorem any (p : Parser α) : Gives (fun _ => True) p :=
  fun _ _ _ _ _ => trivial

theorem fail (f : Fault) : Gives P (Parser.fail f) := by
  rintro scope ts a rest ⟨⟩

theorem mono {p : Parser α} (h : Gives P p) (hPQ : ∀ a, P a → Q a) : Gives Q p :=
  fun scope ts a rest ha => hPQ a (h scope ts a rest ha)

/-- A property that a step keeps holds at the end of the loop. -/
theorem loop {I : β → Prop} {step : β → Parser (β ⊕ α)}
    (h : ∀ b, I b → Gives (Sum.elim I P) (step b)) (n : Nat) :
    ∀ b, I b → Gives P (Parser.loop step n b) := by
  induction n with
  | zero => exact fun _ _ => (any peek).bind fun _ _ => fail _
  | succ n ih =>
    intro b hb
    refine (h b hb).bind fun next hnext => ?_
    cases next with
    | inl b => exact ih b hnext
    | inr a => exact .pure hnext

theorem repeatFrom {I : β → Prop} {step : β → Parser (β ⊕ α)} {start : β} (hstart : I start)
    (h : ∀ b, I b → Gives (Sum.elim I P) (step b)) : Gives P (Parser.repeatFrom start step) :=
  (any remaining).bind fun n _ => loop h (n + 1) start hstart

end Gives

end SqlLayout.Sql.Parser
