import SqlLayout.Proofs.HostAdvancing

/-!
New texts for the literals of a source. The parsers look at a text literal only to see that it is one,
so with new texts they read what they read before, with the new texts for the values. The parsers of
which this holds are a class, so that it holds of a parser if it holds of its parts.
-/

namespace SqlLayout.Host

/-- New texts for literals, by the places where they start, and the places where the old ones are by
then. -/
structure Renewal where
  text? : Nat → Option String
  move : Nat → Nat
  readable : ∀ start text, text? start = some text → textOf (rawLiteral text) = text

namespace Renewal

variable (m : Renewal)

/-- The value of the text literal at a place. -/
def value (old : String) (start : Nat) : String :=
  (m.text? start).getD old

/-- The literal at a place. -/
def literal (old : String) (start : Nat) : String :=
  if isText old then ((m.text? start).map rawLiteral).getD old else old

end Renewal

theorem isText_rawLiteral (text : String) : isText (rawLiteral text) = true := by
  rw [isText, Bool.or_eq_true]
  right
  simp only [String.startsWith_string_iff, rawLiteral, String.toList_append, List.append_assoc]
  exact List.prefix_append _ _

section

variable (m : Renewal)

mutual

/-- The tree with its new literals. -/
def Tree.renew : Tree → Tree
  | .group d ts => .group d (renewTrees ts)
  | .literal text start stop => .literal (m.literal text start) (m.move start) (m.move stop)
  | .word text => .word text
  | .mark c joined => .mark c joined

def renewTrees : List Tree → List Tree
  | [] => []
  | t :: r => t.renew :: renewTrees r

end

end

variable {m : Renewal}

@[simp]
theorem renewTrees_nil : renewTrees m [] = [] := rfl

@[simp]
theorem renewTrees_cons (t : Tree) (r : List Tree) :
    renewTrees m (t :: r) = t.renew m :: renewTrees m r := rfl

theorem renewTrees_eq_map (ts : List Tree) : renewTrees m ts = ts.map (Tree.renew m) := by
  induction ts with
  | nil => rfl
  | cons t r ih => rw [renewTrees_cons, ih, List.map_cons]

@[simp]
theorem length_renewTrees (ts : List Tree) : (renewTrees m ts).length = ts.length := by
  rw [renewTrees_eq_map, List.length_map]

@[simp]
theorem isEmpty_renewTrees (ts : List Tree) : (renewTrees m ts).isEmpty = ts.isEmpty := by
  rw [renewTrees_eq_map, List.isEmpty_map]

@[simp]
theorem drop_renewTrees (n : Nat) (ts : List Tree) :
    (renewTrees m ts).drop n = renewTrees m (ts.drop n) := by
  rw [renewTrees_eq_map, renewTrees_eq_map, List.map_drop]

mutual

theorem Tree.size_renew : (t : Tree) → (t.renew m).size = t.size
  | .group d ts => by rw [Tree.renew, Tree.size, Tree.size, treesSize_renew ts]
  | .literal _ _ _ => rfl
  | .word _ => rfl
  | .mark _ _ => rfl

theorem treesSize_renew : (ts : List Tree) → treesSize (renewTrees m ts) = treesSize ts
  | [] => rfl
  | t :: r => by rw [renewTrees_cons, treesSize, treesSize, Tree.size_renew t, treesSize_renew r]

end

/-! ### What a parser sees -/

namespace Renewal

@[simp]
theorem isText_literal (old : String) (start : Nat) : isText (m.literal old start) = isText old := by
  unfold literal
  split
  · rename_i htext
    cases m.text? start with
    | none => rfl
    | some text => rw [Option.map_some, Option.getD_some, isText_rawLiteral, htext]
  · rfl

theorem literal_of_not_isText {old : String} (h : isText old = false) (start : Nat) :
    m.literal old start = old := by
  rw [literal, h]
  rfl

theorem textOf_literal {old : String} (h : isText old) (start : Nat) :
    textOf (m.literal old start) = m.value (textOf old) start := by
  rw [literal, if_pos h, value]
  cases htext : m.text? start with
  | none => rfl
  | some text => exact m.readable start text htext

end Renewal

/-- A text literal is no number, not even after a minus. -/
theorem not_number_of_isText {literal : String} (h : isText literal) :
    isNumber literal = false ∧ isFloat literal = false ∧ isInteger literal = false := by
  have hhead : ∃ c r, literal.toList = c :: r ∧ c.isDigit = false ∧ c ≠ '-' := by
    rw [isText, Bool.or_eq_true, String.startsWith_string_iff, String.startsWith_string_iff] at h
    obtain ⟨r, hr⟩ | ⟨r, hr⟩ := h
    · exact ⟨'"', r, hr.symm, by decide, by decide⟩
    · exact ⟨'r', r, hr.symm, by decide, by decide⟩
  obtain ⟨c, r, hliteral, hdigit, hminus⟩ := hhead
  have hnumber : isNumber literal = false := by
    rw [isNumber, hliteral, List.head?_cons, Option.any_some, hdigit]
  have hsign : literal.startsWith "-" = false := by
    rw [Bool.eq_false_iff, Ne, String.startsWith_string_iff, hliteral]
    rintro ⟨s, hs⟩
    exact hminus (List.cons.inj hs).1.symm
  refine ⟨hnumber, ?_, ?_⟩
  · simp [isFloat, hsign, hnumber]
  · simp [isInteger, hnumber]

@[simp]
theorem isNumber_renew (old : String) (start : Nat) :
    isNumber (m.literal old start) = isNumber old := by
  by_cases h : isText old
  · rw [(not_number_of_isText h).1, (not_number_of_isText (by rwa [Renewal.isText_literal])).1]
  · rw [Renewal.literal_of_not_isText (Bool.eq_false_iff.2 h)]

@[simp]
theorem isFloat_renew (old : String) (start : Nat) : isFloat (m.literal old start) = isFloat old := by
  by_cases h : isText old
  · rw [(not_number_of_isText h).2.1, (not_number_of_isText (by rwa [Renewal.isText_literal])).2.1]
  · rw [Renewal.literal_of_not_isText (Bool.eq_false_iff.2 h)]

@[simp]
theorem isInteger_renew (old : String) (start : Nat) :
    isInteger (m.literal old start) = isInteger old := by
  by_cases h : isText old
  · rw [(not_number_of_isText h).2.2, (not_number_of_isText (by rwa [Renewal.isText_literal])).2.2]
  · rw [Renewal.literal_of_not_isText (Bool.eq_false_iff.2 h)]

theorem marksAhead_renew (cs : List Char) (ts : List Tree) :
    marksAhead cs (renewTrees m ts) = marksAhead cs ts := by
  induction cs generalizing ts with
  | nil => rfl
  | cons c cs ih =>
    cases ts with
    | nil => cases cs <;> rfl
    | cons t r => cases t <;> cases cs <;> simp [marksAhead, Tree.renew, ih]

@[simp]
theorem holds_renew (t : Ahead) (ts : List Tree) : t.holds (renewTrees m ts) = t.holds ts := by
  cases t with
  | mark text => exact marksAhead_renew text.toList ts
  | _ =>
    match ts with
    | [] => rfl
    | .group _ _ :: _ => simp [Ahead.holds, Tree.renew]
    | .word _ :: _ => simp [Ahead.holds, Tree.renew]
    | .literal _ _ _ :: _ => simp [Ahead.holds, Tree.renew]
    | [.mark _ _] => simp [Ahead.holds, Tree.renew]
    | .mark _ _ :: .group _ _ :: _ => simp [Ahead.holds, Tree.renew]
    | .mark c joined :: .word _ :: _ =>
      by_cases hc : c = '\x27'
      · subst hc
        cases joined <;> simp [Ahead.holds, Tree.renew]
      · simp [Ahead.holds, Tree.renew, hc]
    | .mark c _ :: .literal _ _ _ :: _ =>
      by_cases hc : c = '-'
      · subst hc
        simp [Ahead.holds, Tree.renew]
      · simp [Ahead.holds, Tree.renew, hc]
    | .mark _ _ :: .mark _ _ :: _ => simp [Ahead.holds, Tree.renew]

@[simp]
theorem pass_renew (ts : List Tree) : pass (renewTrees m ts) = renewTrees m (pass ts) := by
  match ts with
  | [] => rfl
  | .group _ _ :: _ => simp [pass, Tree.renew]
  | .word _ :: _ => simp [pass, Tree.renew]
  | .literal _ _ _ :: _ => simp [pass, Tree.renew]
  | [.mark _ _] => simp [pass, Tree.renew]
  | .mark c joined :: .group _ _ :: _ => simp [pass, Tree.renew]
  | .mark c joined :: .word _ :: _ =>
    by_cases hc : c = '\x27'
    · subst hc
      cases joined <;> simp [pass, Tree.renew]
    · simp [pass, Tree.renew, hc]
  | .mark _ _ :: .literal _ _ _ :: _ => simp [pass, Tree.renew]
  | .mark _ _ :: .mark _ _ :: _ => simp [pass, Tree.renew]

/-! ### What a parser gives -/

/-- The constant with its new text. -/
def Constant.renew (m : Renewal) (c : Constant) : Constant where
  name := c.name
  value := m.value c.value c.start
  start := m.move c.start
  stop := m.move c.stop

/-- The shape with its new text. -/
def ExprShape.renew (m : Renewal) : ExprShape → ExprShape
  | .text value start stop => .text (m.value value start) (m.move start) (m.move stop)
  | shape => shape

/-- A shape that is no text is told apart as before. -/
theorem renew_eq_iff {shape form : ExprShape} (h : ∀ value start stop, form ≠ .text value start stop) :
    shape.renew m = form ↔ shape = form := by
  cases shape with
  | text value start stop =>
    exact iff_of_false (fun heq => h _ _ _ heq.symm) fun heq => h _ _ _ heq.symm
  | _ => rfl

theorem renew_beq {shape form : ExprShape} (h : ∀ value start stop, form ≠ .text value start stop) :
    (shape.renew m == form) = (shape == form) := by
  rw [Bool.eq_iff_iff, beq_iff_eq, beq_iff_eq, renew_eq_iff h]

theorem renew_bne {shape form : ExprShape} (h : ∀ value start stop, form ≠ .text value start stop) :
    (shape.renew m != form) = (shape != form) := by
  rw [bne, bne, renew_beq h]

/-- The input with its new literals. -/
def Input.renew (m : Renewal) (s : Input) : Input where
  trees := renewTrees m s.trees
  found := s.found.map (Constant.renew m)
  unread := s.unread

/-- How the new literals show in what a parser gives. -/
class Renews (α : Type) where
  renew : Renewal → α → α

export Renews (renew)

/-- Most results know nothing of literals. -/
instance (priority := low) Renews.plain (α : Type) : Renews α where
  renew _ a := a

instance : Renews (List Tree) where
  renew := renewTrees

instance : Renews ExprShape where
  renew := ExprShape.renew

instance {α : Type} [Renews α] : Renews (Option α) where
  renew m a := a.map (renew m)

instance {α β : Type} [Renews α] [Renews β] : Renews (α × β) where
  renew m a := (renew m a.1, renew m a.2)

/-- A type of results that know nothing of literals. -/
class Plain (α : Type) [Renews α] : Prop where
  renew_eq : ∀ (m : Renewal) (a : α), renew m a = a

instance (α : Type) : @Plain α (.plain α) :=
  @Plain.mk α (.plain α) fun _ _ => rfl

instance {α : Type} [Renews α] [Plain α] : Plain (Option α) where
  renew_eq m a := by
    cases a with
    | none => rfl
    | some a => exact congrArg some (Plain.renew_eq m a)

instance {α β : Type} [Renews α] [Renews β] [Plain α] [Plain β] : Plain (α × β) where
  renew_eq m a := Prod.ext (Plain.renew_eq m a.1) (Plain.renew_eq m a.2)

/-- With new literals in the input, the second parser does what the first one does without. -/
class Mirrors {α : Type} [Renews α] (m : Renewal) (p q : Parser α) : Prop where
  mirrors : ∀ s, q (s.renew m) = (p s).map fun (a, s') => (renew m a, s'.renew m)

namespace Parser

@[simp]
theorem genericsFollow_renew (ts : List Tree) : genericsFollow (renewTrees m ts) = genericsFollow ts := by
  simp [genericsFollow]

theorem ite_renewTrees (c : Prop) [Decidable c] (a b : List Tree) :
    (if c then renewTrees m a else renewTrees m b) = renewTrees m (if c then a else b) := by
  split <;> rfl

@[simp]
theorem functionAhead_renew (allowSafe : Bool) (ts : List Tree) :
    functionAhead allowSafe (renewTrees m ts) = functionAhead allowSafe ts := by
  simp only [functionAhead, holds_renew, drop_renewTrees, ite_renewTrees]

variable {α β : Type} [Renews α] [Renews β]

theorem mirrors_bind {x y : Parser α} {f g : α → Parser β} (hx : Mirrors m x y)
    (hf : ∀ a, Mirrors m (f a) (g (renew m a))) : Mirrors m (x >>= f) (y >>= g) where
  mirrors s := by
    have hstep : (y >>= g) (s.renew m) = y (s.renew m) >>= fun r => g r.1 r.2 := rfl
    have hstep' : (x >>= f) s = x s >>= fun r => f r.1 r.2 := rfl
    rw [hstep, hstep', hx.mirrors]
    cases x s with
    | error e => rfl
    | ok r => exact (hf r.1).mirrors r.2

theorem mirrors_bind_plain [Plain α] {x y : Parser α} {f g : α → Parser β} (hx : Mirrors m x y)
    (hf : ∀ a, Mirrors m (f a) (g a)) : Mirrors m (x >>= f) (y >>= g) :=
  mirrors_bind hx fun a => by
    rw [Plain.renew_eq]
    exact hf a

instance (x y : Parser α) (f g : α → Parser β) [Plain α] [Mirrors m x y] [∀ a, Mirrors m (f a) (g a)] :
    Mirrors m (x >>= f) (y >>= g) :=
  mirrors_bind_plain inferInstance inferInstance

instance (x y : Parser α) (z w : Parser β) [Mirrors m x y] [Mirrors m z w] :
    Mirrors m (x >>= fun _ => z) (y >>= fun _ => w) :=
  mirrors_bind inferInstance fun _ => inferInstance

instance (priority := low) (x y : Parser α) (f g : α → Parser β) [Mirrors m x y]
    [∀ a, Mirrors m (f a) (g (renew m a))] : Mirrors m (x >>= f) (y >>= g) :=
  mirrors_bind inferInstance inferInstance

instance (a : α) : Mirrors m (pure a) (pure (renew m a)) where
  mirrors _ := rfl

instance : Mirrors m (pure ExprShape.other) (pure .other) where
  mirrors _ := rfl

instance : Mirrors m (pure ExprShape.block) (pure .block) where
  mirrors _ := rfl

instance : Mirrors m (pure ExprShape.range) (pure .range) where
  mirrors _ := rfl

instance (d : Delimiter) : Mirrors m (pure (ExprShape.invocation d)) (pure (.invocation d)) where
  mirrors _ := rfl

instance [Plain α] (a : α) : Mirrors m (pure a) (pure a) where
  mirrors s := by
    change Except.ok (a, s.renew m) = Except.ok (renew m a, s.renew m)
    rw [Plain.renew_eq]

instance (c : Prop) [Decidable c] (x y z w : Parser α) [Mirrors m x y] [Mirrors m z w] :
    Mirrors m (if c then x else z) (if c then y else w) := by
  split <;> infer_instance

instance (x y : Parser α) [h : Mirrors m x y] : Mirrors m (some <$> x) (some <$> y) where
  mirrors s := by
    change (y (s.renew m) >>= fun r => _) = Except.map _ (x s >>= fun r => _)
    rw [h.mirrors]
    cases x s <;> rfl

instance : Mirrors m (pure (none : Option α)) (pure none) where
  mirrors _ := rfl

instance {γ δ : Type} [Renews δ] (l : List γ) (f : γ → Parser δ) [∀ a, Mirrors m (f a) (f a)] :
    Mirrors m
      (forIn l PUnit.unit fun a _ => do
        let _ ← f a
        pure (ForInStep.yield PUnit.unit) : Parser PUnit)
      (forIn l PUnit.unit fun a _ => do
        let _ ← f a
        pure (ForInStep.yield PUnit.unit)) := by
  induction l with
  | nil =>
    rw [List.forIn_nil]
    infer_instance
  | cons a r ih =>
    rw [List.forIn_cons]
    simp only [bind_assoc, pure_bind]
    infer_instance

instance (message : String) : Mirrors m (fail message : Parser α) (fail message) where
  mirrors _ := rfl

instance : Mirrors m trees trees where
  mirrors _ := rfl

/-- What depends on the tokens ahead. -/
theorem mirrors_trees {f g : List Tree → Parser α} (h : ∀ ts, Mirrors m (f ts) (g (renewTrees m ts))) :
    Mirrors m (trees >>= f) (trees >>= g) :=
  mirrors_bind inferInstance h

instance (message : String) : Mirrors m (failHere message : Parser α) (failHere message) :=
  mirrors_trees fun ts => by
    rw [isEmpty_renewTrees]
    infer_instance

instance (options : List Ahead) :
    Mirrors m (expectedOneOf options : Parser α) (expectedOneOf options) := by
  unfold expectedOneOf
  refine mirrors_trees fun ts => ?_
  simp only [holds_renew]
  split
  · refine mirrors_trees fun ts => ?_
    rw [isEmpty_renewTrees]
    infer_instance
  · infer_instance
  · infer_instance
  · infer_instance

/-- What depends on the whole input. -/
theorem mirrors_get {f g : Input → Parser α} (h : ∀ s, Mirrors m (f s) (g (s.renew m))) :
    Mirrors m (get >>= f) (get >>= g) where
  mirrors s := (h s).mirrors s

instance (found : List Constant) : Mirrors m (modify fun s => { s with found })
    (modify fun s => { s with found := found.map (Constant.renew m) }) where
  mirrors _ := rfl

instance (ts : List Tree) : Mirrors m (modify fun s => { s with trees := ts })
    (modify fun s => { s with trees := renewTrees m ts }) where
  mirrors _ := rfl

/-- What is seen of the tokens ahead. -/
theorem mirrors_look (f : List Tree → α) [Plain α] (h : ∀ ts, f (renewTrees m ts) = f ts) :
    Mirrors m (do return f (← trees)) (do return f (← trees)) where
  mirrors s := by
    change Except.ok (f (renewTrees m s.trees), s.renew m) = Except.ok (renew m (f s.trees), s.renew m)
    rw [h, Plain.renew_eq]

instance (t : Ahead) : Mirrors m (ahead t) (ahead t) :=
  mirrors_look _ (holds_renew t)

instance (ts : List Ahead) : Mirrors m (anyAhead ts) (anyAhead ts) :=
  mirrors_look (fun trees => ts.any (·.holds trees)) fun trees => by simp

instance (t : Ahead) : Mirrors m (ahead2 t) (ahead2 t) :=
  mirrors_look (fun ts => t.holds (pass ts)) fun ts => by simp

instance (t : Ahead) : Mirrors m (ahead3 t) (ahead3 t) :=
  mirrors_look (fun ts => t.holds (pass (pass ts))) fun ts => by simp

instance : Mirrors m remaining remaining :=
  mirrors_look List.length length_renewTrees

instance : Mirrors m atEnd atEnd :=
  mirrors_look List.isEmpty isEmpty_renewTrees

instance : Mirrors m genericsAhead genericsAhead :=
  mirrors_look genericsFollow genericsFollow_renew

instance (n : Nat) : Mirrors m (drop n) (drop n) where
  mirrors s := by
    change Except.ok ((), { s.renew m with trees := (renewTrees m s.trees).drop n }) =
      Except.ok ((), _)
    rw [drop_renewTrees]
    rfl

instance (t : Ahead) : Mirrors m (take? t) (take? t) := by
  unfold take?
  infer_instance

instance (text : String) : Mirrors m (mark text) (mark text) := by
  unfold mark
  infer_instance

instance (text : String) : Mirrors m (word text) (word text) := by
  unfold word
  infer_instance

instance : Mirrors m anyWord anyWord :=
  mirrors_trees fun ts => by
    rcases ts with _ | ⟨_ | _ | _ | _, _⟩ <;> (dsimp only [renewTrees, Tree.renew]; infer_instance)

instance : Mirrors m name name :=
  mirrors_trees fun ts => by
    rcases ts with _ | ⟨_ | _ | _ | _, _⟩ <;> (dsimp only [renewTrees, Tree.renew]; infer_instance)

instance : Mirrors m lifetime lifetime := by
  unfold lifetime
  infer_instance

instance : Mirrors m anyGroup anyGroup :=
  mirrors_trees fun ts => by
    rcases ts with _ | ⟨_ | _ | _ | _, _⟩ <;> (dsimp only [renewTrees, Tree.renew]; infer_instance)

omit [Renews α] in
/-- A group is read by itself, and then what stands after it. -/
theorem inside_group_eq (d e : Delimiter) (p : Parser α) (inner rest : List Tree) (s : Input) :
    inside d p { s with trees := .group e inner :: rest } =
      if d = e then
        (p { s with trees := inner }).map fun (a, after) =>
          (a, { after with
                trees := rest
                unread := after.unread.or (if after.trees.isEmpty then none else some d) })
      else .error ("expected " ++ d.label) := by
  by_cases hd : d = e
  · subst hd
    rw [if_pos rfl]
    have hstep : inside d p { s with trees := .group d inner :: rest } =
        (if d == d then do
          set { s with trees := inner }
          let a ← p
          let after ← get
          set { after with
            trees := rest
            unread := after.unread.or (if after.trees.isEmpty then none else some d) }
          return a
        else fail ("expected " ++ d.label) : Parser α) { s with trees := .group d inner :: rest } := rfl
    rw [hstep, if_pos (beq_self_eq_true d)]
    change (p { s with trees := inner } >>= fun r => _) = _
    cases p { s with trees := inner } <;> rfl
  · have hne : ¬ (d == e) = true := by simpa using hd
    change (if d == e then _ else fail ("expected " ++ d.label) : Parser α) _ = _
    rw [if_neg hd, if_neg hne]
    rfl

instance (d : Delimiter) (p q : Parser α) [h : Mirrors m p q] :
    Mirrors m (inside d p) (inside d q) where
  mirrors s := by
    obtain ⟨ts, found, unread⟩ := s
    have hfault : Mirrors m (failHere ("expected " ++ d.label) : Parser α)
      (failHere ("expected " ++ d.label)) := inferInstance
    match ts with
    | [] => exact hfault.mirrors ⟨[], found, unread⟩
    | .word text :: r => exact hfault.mirrors ⟨.word text :: r, found, unread⟩
    | .mark c joined :: r => exact hfault.mirrors ⟨.mark c joined :: r, found, unread⟩
    | .literal text start stop :: r =>
      exact hfault.mirrors ⟨.literal text start stop :: r, found, unread⟩
    | .group e inner :: rest =>
      have hold := inside_group_eq d e p inner rest ⟨[], found, unread⟩
      have hnew := inside_group_eq d e q (renewTrees m inner) (renewTrees m rest)
        ⟨[], found.map (Constant.renew m), unread⟩
      refine hnew.trans (Eq.trans ?_ (congrArg _ hold.symm))
      split
      · have hinner := h.mirrors ⟨inner, found, unread⟩
        simp only [Input.renew] at hinner
        rw [hinner]
        cases p ⟨inner, found, unread⟩ with
        | error e => rfl
        | ok r => simp [Except.map, Input.renew]
      · rfl

instance (p q : Parser α) [h : Mirrors m p q] : Mirrors m (attempt p) (attempt q) where
  mirrors s := by
    unfold attempt
    rw [h.mirrors]
    cases p s <;> rfl

instance (p q : Parser α) [h : Mirrors m p q] : Mirrors m (lookPast p) (lookPast q) where
  mirrors s := by
    unfold lookPast
    rw [h.mirrors]
    cases p s <;> rfl

instance (p : Parser Bool) [h : Mirrors m p p] : Mirrors m (keepIf p) (keepIf p) where
  mirrors s := by
    have hrun (s : Input) : keepIf p s = (p s).map fun (keeps, s') =>
        ((), if keeps then s' else { s' with found := s.found }) := by
      change (p s >>= fun r => _) = _
      cases p s with
      | error e => rfl
      | ok r =>
        obtain ⟨keeps, s'⟩ := r
        cases keeps <;> rfl
    rw [hrun, hrun, h.mirrors]
    cases p s with
    | error e => rfl
    | ok r =>
      obtain ⟨keeps, s'⟩ := r
      cases keeps <;> rfl

instance (step : Parser Bool) (fuel : Nat) [Mirrors m step step] :
    Mirrors m (repeatWhile step fuel) (repeatWhile step fuel) := by
  induction fuel with
  | zero =>
    unfold repeatWhile
    infer_instance
  | succ fuel ih =>
    unfold repeatWhile
    infer_instance

instance (step : Parser Bool) [Mirrors m step step] : Mirrors m (loop step) (loop step) := by
  unfold loop
  infer_instance

instance (p : Parser Unit) [Mirrors m p p] : Mirrors m (untilEnd p) (untilEnd p) := by
  unfold untilEnd
  infer_instance

instance (stop : Parser Bool) (separator : String) (p : Parser Unit) [Mirrors m stop stop]
    [Mirrors m p p] : Mirrors m (separatedUntil stop separator p) (separatedUntil stop separator p) := by
  unfold separatedUntil
  infer_instance

instance (p : Parser Unit) [Mirrors m p p] : Mirrors m (terminated p) (terminated p) := by
  unfold terminated
  infer_instance

instance (stop : Parser Bool) (separator : String) (p : Parser Unit) [Mirrors m stop stop]
    [Mirrors m p p] : Mirrors m (separatedWhile stop separator p) (separatedWhile stop separator p) := by
  unfold separatedWhile
  infer_instance

end Parser

end SqlLayout.Host
