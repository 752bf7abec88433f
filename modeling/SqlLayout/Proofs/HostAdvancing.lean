import SqlLayout.Proofs.HostLiterals
import Mathlib.Data.List.Perm.Subperm

/-!
Reading goes forward. A parser takes trees from the front of its input, and each constant that it finds
has a closed literal of its own among the trees that it took. The parsers that go forward are a class,
so that a parser does if its parts do.
-/

namespace SqlLayout.Host

/-- The text of a constant with its places. -/
def Constant.span (c : Constant) : Span :=
  ⟨c.value, c.start, c.stop⟩

/-- From one state to a later one: trees are taken from the front, and each new constant has a closed
literal of its own in them. -/
def Advances (s s' : Input) : Prop :=
  ∃ taken new, s.trees = taken ++ s'.trees ∧ s'.found = s.found ++ new ∧
    (new.map Constant.span).Subperm (closedSpans (treeLexemes taken))

theorem Advances.of_trees {s s' : Input} (taken : List Tree) (ht : s.trees = taken ++ s'.trees)
    (hf : s'.found = s.found) : Advances s s' :=
  ⟨taken, [], ht, by simp [hf], List.nil_subperm⟩

theorem Advances.refl (s : Input) : Advances s s :=
  .of_trees [] rfl rfl

theorem subperm_closedSpans_append {a b : List Tree} {l m : List Span}
    (hl : l.Subperm (closedSpans (treeLexemes a))) (hm : m.Subperm (closedSpans (treeLexemes b))) :
    (l ++ m).Subperm (closedSpans (treeLexemes (a ++ b))) := by
  rw [treeLexemes_append]
  exact (hl.append hm).trans (closedSpans_append_sublist _ _).subperm

theorem Advances.trans {s t u : Input} (h : Advances s t) (h' : Advances t u) : Advances s u := by
  obtain ⟨a, m, ht, hm, hspans⟩ := h
  obtain ⟨b, n, hu, hn, hspans'⟩ := h'
  refine ⟨a ++ b, m ++ n, ?_, ?_, ?_⟩
  · rw [ht, hu, List.append_assoc]
  · rw [hn, hm, List.append_assoc]
  · rw [List.map_append]
    exact subperm_closedSpans_append hspans hspans'

/-- The constants found since then are forgotten. -/
theorem Advances.forget {s t : Input} (h : Advances s t) :
    Advances s { t with found := s.found } := by
  obtain ⟨a, m, ht, -, -⟩ := h
  exact .of_trees a ht rfl

/-- A parser that goes forward. -/
class Advancing {α : Type} (p : Parser α) : Prop where
  advances : ∀ {s : Input} {a : α} {s' : Input}, p s = .ok (a, s') → Advances s s'

namespace Parser

variable {α β : Type}

/-- From a run that gives a result, its first step and the rest. -/
theorem bind_ok {x : Parser α} {f : α → Parser β} {s s'' : Input} {b : β}
    (h : (x >>= f) s = .ok (b, s'')) : ∃ a s', x s = .ok (a, s') ∧ f a s' = .ok (b, s'') := by
  obtain ⟨⟨a, s'⟩, hx, hf⟩ := bind_eq_ok h
  exact ⟨a, s', hx, hf⟩

theorem advancing_bind {x : Parser α} {f : α → Parser β} (hx : Advancing x)
    (hf : ∀ a, Advancing (f a)) : Advancing (x >>= f) where
  advances h := by
    obtain ⟨a, s', hx', hf'⟩ := bind_ok h
    exact (hx.advances hx').trans ((hf a).advances hf')

instance (x : Parser α) (f : α → Parser β) [Advancing x] [∀ a, Advancing (f a)] :
    Advancing (x >>= f) :=
  advancing_bind inferInstance inferInstance

instance (a : α) : Advancing (pure a : Parser α) where
  advances := by
    rintro s _ _ ⟨⟩
    exact .refl s

instance (f : α → β) (x : Parser α) [Advancing x] : Advancing (f <$> x) where
  advances h := by
    obtain ⟨⟨a, s'⟩, hx, hf⟩ := bind_eq_ok h
    cases hf
    exact Advancing.advances hx

instance (c : Prop) [Decidable c] (x y : Parser α) [Advancing x] [Advancing y] :
    Advancing (if c then x else y) := by
  split <;> infer_instance

instance (l : List α) (f : α → Parser β) [∀ a, Advancing (f a)] :
    Advancing (forIn l PUnit.unit fun a _ => do
      let _ ← f a
      pure (ForInStep.yield PUnit.unit) : Parser PUnit) := by
  induction l with
  | nil =>
    rw [List.forIn_nil]
    infer_instance
  | cons a r ih =>
    rw [List.forIn_cons]
    simp only [bind_assoc, pure_bind]
    infer_instance

instance (message : String) : Advancing (fail message : Parser α) where
  advances h := by cases h

instance : Advancing (get : Parser Input) where
  advances := by
    rintro s _ _ ⟨⟩
    exact .refl s

instance : Advancing trees := by
  unfold trees
  infer_instance

instance (message : String) : Advancing (failHere message : Parser α) := by
  unfold failHere
  infer_instance

theorem failHere_ne_ok (message : String) (s : Input) (r : α × Input) :
    failHere message s ≠ .ok r := by
  intro h
  obtain ⟨ts, s', -, h⟩ := bind_ok h
  split at h <;> cases h

/-- A fault ends every run. -/
theorem expectedOneOf_ne_ok (options : List Ahead) (s : Input) (r : α × Input) :
    expectedOneOf options s ≠ .ok r := by
  intro h
  obtain ⟨ts, s', -, h⟩ := bind_ok h
  generalize (options.filter fun t => !t.holds ts).map Ahead.label = labels at h
  match labels with
  | [] =>
    obtain ⟨ts, s'', -, h⟩ := bind_ok h
    split at h <;> cases h
  | [a] => exact failHere_ne_ok _ _ _ h
  | [a, b] => exact failHere_ne_ok _ _ _ h
  | a :: b :: c :: rest => exact failHere_ne_ok _ _ _ h

instance (options : List Ahead) : Advancing (expectedOneOf options : Parser α) where
  advances h := absurd h (expectedOneOf_ne_ok options _ _)

/-- What comes before a fault does not matter. -/
instance (x : Parser β) (options : List Ahead) :
    Advancing (x >>= fun _ => expectedOneOf options : Parser α) where
  advances h := by
    obtain ⟨_, s', -, h⟩ := bind_ok h
    exact absurd h (expectedOneOf_ne_ok options _ _)

instance (t : Ahead) : Advancing (ahead t) := by
  unfold ahead
  infer_instance

instance (ts : List Ahead) : Advancing (anyAhead ts) := by
  unfold anyAhead
  infer_instance

instance (t : Ahead) : Advancing (ahead2 t) := by
  unfold ahead2
  infer_instance

instance (t : Ahead) : Advancing (ahead3 t) := by
  unfold ahead3
  infer_instance

instance : Advancing remaining := by
  unfold remaining
  infer_instance

instance : Advancing atEnd := by
  unfold atEnd
  infer_instance

instance (n : Nat) : Advancing (drop n) where
  advances := by
    rintro s _ _ ⟨⟩
    exact .of_trees (s.trees.take n) (List.take_append_drop n s.trees).symm rfl

instance (t : Ahead) : Advancing (take? t) := by
  unfold take?
  infer_instance

instance (text : String) : Advancing (mark text) := by
  unfold mark
  infer_instance

instance (text : String) : Advancing (word text) := by
  unfold word
  infer_instance

instance : Advancing anyWord :=
  advancing_bind inferInstance fun ts => by split <;> infer_instance

instance : Advancing name :=
  advancing_bind inferInstance fun ts => by split <;> infer_instance

instance : Advancing lifetime := by
  unfold lifetime
  infer_instance

instance : Advancing anyGroup :=
  advancing_bind inferInstance fun ts => by split <;> infer_instance

/-- The closed literals in a group are closed literals. -/
theorem closedSpans_group (d : Delimiter) (a b : List Tree) :
    (closedSpans (treeLexemes a)).Sublist (closedSpans (treeLexemes [.group d (a ++ b)])) := by
  have hsplit : treeLexemes [.group d (a ++ b)] =
      [.opening d] ++ (treeLexemes a ++ (treeLexemes b ++ [.closing d])) := by
    simp [treeLexemes, Tree.lexemes, treeLexemes_append]
  rw [hsplit]
  have hinner := closedSpans_append_sublist (treeLexemes a) (treeLexemes b ++ [.closing d])
  have houter := closedSpans_append_sublist [.opening d]
    (treeLexemes a ++ (treeLexemes b ++ [.closing d]))
  exact ((List.sublist_append_left _ _).trans hinner).trans
    ((List.sublist_append_right _ _).trans houter)

theorem inside_group {d : Delimiter} {p : Parser α} {s s' : Input} {a : α}
    (h : inside d p s = .ok (a, s')) :
    ∃ inner s₁, s.trees = .group d inner :: s'.trees ∧
      p { s with trees := inner } = .ok (a, s₁) ∧ s'.found = s₁.found := by
  obtain ⟨s₀, s₁, hs, h⟩ := bind_ok h
  cases hs
  match htrees : s.trees with
  | [] =>
    rw [htrees] at h
    exact absurd h (failHere_ne_ok _ _ _)
  | .word _ :: _ =>
    rw [htrees] at h
    exact absurd h (failHere_ne_ok _ _ _)
  | .mark _ _ :: _ =>
    rw [htrees] at h
    exact absurd h (failHere_ne_ok _ _ _)
  | .literal _ _ _ :: _ =>
    rw [htrees] at h
    exact absurd h (failHere_ne_ok _ _ _)
  | .group e inner :: rest =>
    rw [htrees] at h
    by_cases hd : d = e
    · subst hd
      simp only [beq_self_eq_true, if_true] at h
      obtain ⟨_, s₂, hset, h⟩ := bind_ok h
      cases hset
      obtain ⟨a', s₃, hp, h⟩ := bind_ok h
      obtain ⟨s₄, s₅, hget, h⟩ := bind_ok h
      cases hget
      obtain ⟨_, s₆, hset, h⟩ := bind_ok h
      cases hset
      cases h
      exact ⟨inner, _, rfl, hp, rfl⟩
    · simp only [beq_iff_eq, hd, if_false] at h
      cases h

/-- A group is taken as a whole. -/
instance (d : Delimiter) (p : Parser α) [Advancing p] : Advancing (inside d p) where
  advances {s a s'} h := by
    obtain ⟨inner, s₁, htrees, hp, hfound⟩ := inside_group h
    obtain ⟨taken, new, ht, hf, hspans⟩ := Advancing.advances hp
    refine ⟨[.group d inner], new, htrees, hfound.trans hf, ?_⟩
    have hgroup := closedSpans_group d taken s₁.trees
    rw [← ht] at hgroup
    exact hspans.trans hgroup.subperm

instance (p : Parser α) [Advancing p] : Advancing (attempt p) where
  advances {s a s'} h := by
    unfold attempt at h
    split at h
    · rename_i hp
      cases h
      exact Advancing.advances hp
    · cases h
      exact .refl s

instance (p : Parser α) : Advancing (lookPast p) where
  advances {s a s'} h := by
    unfold lookPast at h
    cases hp : p s with
    | error e =>
      rw [hp] at h
      cases h
    | ok r =>
      rw [hp] at h
      cases h
      exact .refl s

instance (p : Parser Bool) [Advancing p] : Advancing (keepIf p) where
  advances {s a s'} h := by
    obtain ⟨s₀, s₁, hs, h⟩ := bind_ok h
    cases hs
    obtain ⟨keeps, s₂, hp, h⟩ := bind_ok h
    have hadvances := Advancing.advances hp
    split at h
    · cases h
      exact hadvances
    · cases h
      exact hadvances.forget

instance (step : Parser Bool) (fuel : Nat) [Advancing step] : Advancing (repeatWhile step fuel) := by
  induction fuel with
  | zero =>
    unfold repeatWhile
    infer_instance
  | succ fuel ih =>
    unfold repeatWhile
    infer_instance

instance (step : Parser Bool) [Advancing step] : Advancing (loop step) := by
  unfold loop
  infer_instance

instance (p : Parser Unit) [Advancing p] : Advancing (untilEnd p) := by
  unfold untilEnd
  infer_instance

instance (stop : Parser Bool) (separator : String) (p : Parser Unit) [Advancing stop] [Advancing p] :
    Advancing (separatedUntil stop separator p) := by
  unfold separatedUntil
  infer_instance

instance (p : Parser Unit) [Advancing p] : Advancing (terminated p) := by
  unfold terminated
  infer_instance

instance (stop : Parser Bool) (separator : String) (p : Parser Unit) [Advancing stop] [Advancing p] :
    Advancing (separatedWhile stop separator p) := by
  unfold separatedWhile
  infer_instance

end Parser

end SqlLayout.Host
