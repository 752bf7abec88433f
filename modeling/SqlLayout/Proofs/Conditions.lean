import Mathlib.Data.List.Forall2
import SqlLayout.Layout.OfSql

/-!
Conditions: what is built from `AND`, `OR`, `NOT` and parentheses. The layout of a condition has the
truth value of what was read, whatever the values of its atoms are, and each of its chains holds the
operands of one chain that was read, in their order.
-/

namespace SqlLayout

/-- The truth values of SQL. -/
inductive Ternary
  | false
  | unknown
  | true
  deriving DecidableEq, Repr, Inhabited

namespace Ternary

def and : Ternary → Ternary → Ternary
  | .false, _ => .false
  | _, .false => .false
  | .true, .true => .true
  | _, _ => .unknown

def or : Ternary → Ternary → Ternary
  | .true, _ => .true
  | _, .true => .true
  | .false, .false => .false
  | _, _ => .unknown

def not : Ternary → Ternary
  | .false => .true
  | .unknown => .unknown
  | .true => .false

@[simp] theorem and_true (x : Ternary) : x.and .true = x := by cases x <;> rfl

@[simp] theorem true_and (x : Ternary) : Ternary.true.and x = x := by cases x <;> rfl

@[simp] theorem or_false (x : Ternary) : x.or .false = x := by cases x <;> rfl

@[simp] theorem false_or (x : Ternary) : Ternary.false.or x = x := by cases x <;> rfl

theorem and_assoc (x y z : Ternary) : (x.and y).and z = x.and (y.and z) := by
  cases x <;> cases y <;> cases z <;> rfl

theorem or_assoc (x y z : Ternary) : (x.or y).or z = x.or (y.or z) := by
  cases x <;> cases y <;> cases z <;> rfl

end Ternary

open Layout (Connective)

/-- The value of a connective from those of its operands. -/
def Layout.Connective.fold : Connective → List Ternary → Ternary
  | .and, xs => xs.foldr .and .true
  | .or, xs => xs.foldr .or .false
  | .not, xs => (xs.headD .unknown).not

namespace Sql

/-- Whether an operator is the connective. -/
def BinaryOp.joins : BinaryOp → Connective → Bool
  | .and, .and => true
  | .or, .or => true
  | _, _ => false

/-- Anything but a condition that is made of others. -/
def Expr.isAtom : Expr → Bool
  | .binary _ .and _ => false
  | .binary _ .or _ => false
  | .unary .not _ => false
  | .nested _ => false
  | _ => true

/-- The atoms of a condition, from left to right. -/
def Expr.atoms : Expr → List Expr
  | .binary l .and r => l.atoms ++ r.atoms
  | .binary l .or r => l.atoms ++ r.atoms
  | .unary .not e => e.atoms
  | .nested e => e.atoms
  | e => [e]

/-- The value of a condition whose atoms, counted from `k`, have the values `v`. -/
def Expr.truth (v : Nat → Ternary) : Nat → Expr → Ternary
  | k, .binary l .and r => (l.truth v k).and (r.truth v (k + l.atoms.length))
  | k, .binary l .or r => (l.truth v k).or (r.truth v (k + l.atoms.length))
  | k, .unary .not e => (e.truth v k).not
  | k, .nested e => e.truth v k
  | k, _ => v k

/-- The operands of the largest chain of a connective that the expression is, from left to right and
without parentheses. -/
def Expr.operands (c : Connective) : Expr → List Expr
  | .binary l op r => if op.joins c then l.operands c ++ r.operands c else [.binary l op r]
  | .nested e => e.operands c
  | e => [e]

/-- The largest chains of a condition with their operands: a chain comes before those in its
operands. `around` is the connective of the chain in which the condition stands. -/
def Expr.chains : Option Connective → Expr → List (Connective × List Expr)
  | around, .binary l .and r =>
    (if around = some .and then [] else [(.and, (Expr.binary l .and r).operands .and)]) ++
      l.chains (some .and) ++ r.chains (some .and)
  | around, .binary l .or r =>
    (if around = some .or then [] else [(.or, (Expr.binary l .or r).operands .or)]) ++
      l.chains (some .or) ++ r.chains (some .or)
  | _, .unary .not e => e.chains none
  | around, .nested e => e.chains around
  | _, _ => []

theorem BinaryOp.joins_iff {op : BinaryOp} {c : Connective} :
    op.joins c ↔ (op = .and ∧ c = .and) ∨ (op = .or ∧ c = .or) := by
  cases op <;> cases c <;> simp [BinaryOp.joins]

theorem Expr.operands_chain {op : BinaryOp} {c : Connective} (hop : op.joins c) (l r : Expr) :
    (Expr.binary l op r).operands c = l.operands c ++ r.operands c := by
  simp [Expr.operands, hop]

theorem Expr.operands_chain_ne {op : BinaryOp} {c c' : Connective} (hop : op.joins c) (hc : c' ≠ c)
    {l r : Expr} : (Expr.binary l op r).operands c' = [.binary l op r] := by
  obtain ⟨rfl, rfl⟩ | ⟨rfl, rfl⟩ := BinaryOp.joins_iff.1 hop <;>
    cases c' <;> simp_all [Expr.operands, BinaryOp.joins]

/-- Inside a chain of another connective, a chain is as large as it can be. -/
theorem Expr.chains_chain_ne {op : BinaryOp} {c c' : Connective} (hop : op.joins c) (hc : c' ≠ c)
    {l r : Expr} : (Expr.binary l op r).chains (some c') = (Expr.binary l op r).chains none := by
  obtain ⟨rfl, rfl⟩ | ⟨rfl, rfl⟩ := BinaryOp.joins_iff.1 hop <;>
    cases c' <;> simp_all [Expr.chains]

theorem Expr.operands_atom {e : Expr} (h : e.isAtom) (c : Connective) : e.operands c = [e] := by
  cases e with
  | binary l op r => cases op <;> simp_all [Expr.isAtom, Expr.operands, BinaryOp.joins]
  | nested => cases h
  | _ => rfl

theorem Expr.chains_atom {e : Expr} (h : e.isAtom) (around : Option Connective) :
    e.chains around = [] := by
  unfold Expr.isAtom at h
  split at h <;> simp_all [Expr.chains]

/-- A condition is an atom or made of others. -/
@[elab_as_elim]
theorem Expr.cases_condition {motive : Expr → Prop} (atom : ∀ e, e.isAtom → motive e)
    (chain : ∀ op c l r, BinaryOp.joins op c → motive l → motive r → motive (.binary l op r))
    (not : ∀ e, motive e → motive (.unary .not e)) (nested : ∀ e, motive e → motive (.nested e))
    (e : Expr) : motive e := by
  induction e using Expr.atoms.induct with
  | case1 l r hl hr => exact chain .and .and l r rfl hl hr
  | case2 l r hl hr => exact chain .or .or l r rfl hl hr
  | case3 e h => exact not e h
  | case4 e h => exact nested e h
  | case5 e hand hor hnot hnested =>
    apply atom
    unfold Expr.isAtom
    split
    · exact (hand _ _ rfl).elim
    · exact (hor _ _ rfl).elim
    · exact (hnot _ rfl).elim
    · exact (hnested _ rfl).elim
    · rfl

/-- Expressions that differ in the association of an operator's operands and in the parentheses around
them. -/
inductive Regrouped (op : BinaryOp) : Expr → Expr → Prop
  | refl (e : Expr) : Regrouped op e e
  | symm {e f : Expr} (h : Regrouped op e f) : Regrouped op f e
  | trans {e f g : Expr} (h : Regrouped op e f) (h' : Regrouped op f g) : Regrouped op e g
  | nested (e : Expr) : Regrouped op (.nested e) e
  | assoc (e f g : Expr) :
    Regrouped op (.binary (.binary e op f) op g) (.binary e op (.binary f op g))
  | binary {e e' f f' : Expr} (h : Regrouped op e e') (h' : Regrouped op f f') :
    Regrouped op (.binary e op f) (.binary e' op f')

theorem Regrouped.operands_eq {op : BinaryOp} {c : Connective} (hop : op.joins c) {e f : Expr}
    (h : Regrouped op e f) : e.operands c = f.operands c := by
  induction h with
  | refl => rfl
  | symm _ ih => exact ih.symm
  | trans _ _ ih ih' => exact ih.trans ih'
  | nested => rfl
  | assoc => simp [Expr.operands_chain hop]
  | binary _ _ ih ih' => simp [Expr.operands_chain hop, ih, ih']

end Sql

namespace Layout

mutual

/-- The atoms of a condition, from left to right. -/
def Expr.atoms : Expr → List Expr
  | .logic _ args => exprAtoms args
  | .nested e => e.atoms
  | e => [e]

def exprAtoms : List Expr → List Expr
  | [] => []
  | e :: r => e.atoms ++ exprAtoms r

end

mutual

/-- The value of a condition whose atoms, counted from `k`, have the values `v`. -/
def Expr.truth (v : Nat → Ternary) : Nat → Expr → Ternary
  | k, .logic c args => c.fold (truths v k args)
  | k, .nested e => e.truth v k
  | k, _ => v k

/-- The value of each of several conditions. -/
def truths (v : Nat → Ternary) : Nat → List Expr → List Ternary
  | _, [] => []
  | k, e :: r => e.truth v k :: truths v (k + e.atoms.length) r

end

mutual

/-- The chains of a condition with their operands: a chain comes before those in its operands. -/
def Expr.chains : Expr → List (Connective × List Expr)
  | .logic .not args => exprChains args
  | .logic c args => (c, args) :: exprChains args
  | .nested e => e.chains
  | _ => []

def exprChains : List Expr → List (Connective × List Expr)
  | [] => []
  | e :: r => e.chains ++ exprChains r

end

/-- The tree is the layout of what was read. -/
abbrev LaysOut (e : Sql.Expr) (t : Expr) : Prop :=
  (readingOf e).whole = .ok t

/-- A chain that was read and the one in the layout: the same connective, and operands that are the
layouts of those that were read, one by one. -/
def SameChain (x : Connective × List Sql.Expr) (y : Connective × List Expr) : Prop :=
  x.1 = y.1 ∧ List.Forall₂ LaysOut x.2 y.2

theorem exprAtoms_append (xs ys : List Expr) :
    exprAtoms (xs ++ ys) = exprAtoms xs ++ exprAtoms ys := by
  induction xs with
  | nil => rfl
  | cons e r ih => simp [exprAtoms, ih]

theorem exprChains_append (xs ys : List Expr) :
    exprChains (xs ++ ys) = exprChains xs ++ exprChains ys := by
  induction xs with
  | nil => rfl
  | cons e r ih => simp [exprChains, ih]

theorem truths_append (v : Nat → Ternary) (k : Nat) (xs ys : List Expr) :
    truths v k (xs ++ ys) = truths v k xs ++ truths v (k + (exprAtoms xs).length) ys := by
  induction xs generalizing k with
  | nil => rfl
  | cons e r ih => simp [truths, exprAtoms, ih, Nat.add_assoc]

theorem fold_and_append (xs ys : List Ternary) :
    Connective.and.fold (xs ++ ys) = (Connective.and.fold xs).and (Connective.and.fold ys) := by
  induction xs with
  | nil => simp [Connective.fold]
  | cons x r ih =>
    simp only [Connective.fold, List.cons_append, List.foldr_cons] at ih ⊢
    rw [ih, Ternary.and_assoc]

theorem fold_or_append (xs ys : List Ternary) :
    Connective.or.fold (xs ++ ys) = (Connective.or.fold xs).or (Connective.or.fold ys) := by
  induction xs with
  | nil => simp [Connective.fold]
  | cons x r ih =>
    simp only [Connective.fold, List.cons_append, List.foldr_cons] at ih ⊢
    rw [ih, Ternary.or_assoc]

/-! ### What the places of an expression keep -/

/-- The layout has the atoms, the values and the chains of the condition that was read. -/
structure Agrees (e : Sql.Expr) (t : Expr) : Prop where
  atoms : List.Forall₂ LaysOut e.atoms t.atoms
  truth : ∀ v k, t.truth v k = e.truth v k
  chains : List.Forall₂ SameChain (e.chains none) t.chains

/-- The operands that a condition brings to a chain have its atoms, together its value, and the chains
in it. -/
structure Brings (c : Connective) (e : Sql.Expr) (ts : List Expr) : Prop where
  atoms : List.Forall₂ LaysOut e.atoms (exprAtoms ts)
  truth : c ≠ .not → ∀ v k, c.fold (truths v k ts) = e.truth v k
  chains : List.Forall₂ SameChain (e.chains (some c)) (exprChains ts)
  operands : List.Forall₂ LaysOut (e.operands c) ts

/-- In every place, what a condition becomes agrees with it. -/
structure Reading.Agrees (r : Reading) (e : Sql.Expr) : Prop where
  whole : ∀ t, r.whole = .ok t → Layout.Agrees e t
  bare : ∀ t, r.bare = .ok t → Layout.Agrees e t
  operands : ∀ c ts, r.operands c = .ok ts → Brings c e ts

theorem Brings.single {c : Connective} {e : Sql.Expr} {t : Expr} (h : Agrees e t) (ht : LaysOut e t)
    (hoperands : e.operands c = [e]) (hchains : e.chains (some c) = e.chains none) :
    Brings c e [t] where
  atoms := by simpa [exprAtoms] using h.atoms
  truth hc v k := by cases c <;> simp_all [truths, Connective.fold, h.truth]
  chains := by simpa [exprChains, hchains] using h.chains
  operands := hoperands ▸ .cons ht .nil

theorem Reading.Agrees.same {e : Sql.Expr} {x : Outcome Expr} (hx : readingOf e = .same x)
    (h : ∀ t, x = .ok t → Layout.Agrees e t) (hoperands : ∀ c, e.operands c = [e])
    (hchains : ∀ c, e.chains (some c) = e.chains none) : (readingOf e).Agrees e where
  whole t ht := h t (by rw [hx] at ht; exact ht)
  bare t ht := h t (by rw [hx] at ht; exact ht)
  operands c ts hts := by
    rw [hx] at hts
    obtain ⟨t, ht, hts⟩ := bind_eq_ok hts
    cases hts
    exact .single (h t ht) (by rw [LaysOut, hx]; exact ht) (hoperands c) (hchains c)

theorem Reading.Agrees.nested {e : Sql.Expr} (h : (readingOf e).Agrees e) :
    (readingOf (.nested e)).Agrees (.nested e) where
  whole t ht := by
    obtain ⟨u, hu, ht⟩ := bind_eq_ok ht
    cases ht
    obtain ⟨hatoms, htruth, hchains⟩ := h.whole u hu
    exact ⟨hatoms, htruth, hchains⟩
  bare t ht := by
    obtain ⟨hatoms, htruth, hchains⟩ := h.bare t ht
    exact ⟨hatoms, htruth, hchains⟩
  operands c ts hts := by
    obtain ⟨hatoms, htruth, hchains, hoperands⟩ := h.operands c ts hts
    exact ⟨hatoms, htruth, hchains, hoperands⟩

theorem Brings.append {op : Sql.BinaryOp} {c : Connective} (hop : op.joins c) {l r : Sql.Expr}
    {ls rs : List Expr} (hl : Brings c l ls) (hr : Brings c r rs) :
    Brings c (.binary l op r) (ls ++ rs) := by
  have hlength : (exprAtoms ls).length = l.atoms.length := hl.atoms.length_eq.symm
  have hoperands : List.Forall₂ LaysOut ((Sql.Expr.binary l op r).operands c) (ls ++ rs) := by
    rw [Sql.Expr.operands_chain hop]
    exact List.rel_append hl.operands hr.operands
  have hatoms : List.Forall₂ LaysOut (l.atoms ++ r.atoms) (exprAtoms (ls ++ rs)) := by
    rw [exprAtoms_append]
    exact List.rel_append hl.atoms hr.atoms
  have hchains : List.Forall₂ SameChain (l.chains (some c) ++ r.chains (some c))
      (exprChains (ls ++ rs)) := by
    rw [exprChains_append]
    exact List.rel_append hl.chains hr.chains
  obtain ⟨rfl, rfl⟩ | ⟨rfl, rfl⟩ := Sql.BinaryOp.joins_iff.1 hop
  · refine ⟨hatoms, fun hc v k => ?_, by simpa [Sql.Expr.chains] using hchains, hoperands⟩
    rw [truths_append, fold_and_append, hl.truth hc, hr.truth hc, hlength, Sql.Expr.truth]
  · refine ⟨hatoms, fun hc v k => ?_, by simpa [Sql.Expr.chains] using hchains, hoperands⟩
    rw [truths_append, fold_or_append, hl.truth hc, hr.truth hc, hlength, Sql.Expr.truth]

/-- A chain whose operands are known. -/
theorem Brings.chain {op : Sql.BinaryOp} {c : Connective} (hop : op.joins c) {l r : Sql.Expr}
    {ts : List Expr} (h : Brings c (.binary l op r) ts) : Agrees (.binary l op r) (.logic c ts) := by
  obtain ⟨hatoms, htruth, hchains, hoperands⟩ := h
  obtain ⟨rfl, rfl⟩ | ⟨rfl, rfl⟩ := Sql.BinaryOp.joins_iff.1 hop
  · refine ⟨hatoms, htruth (by decide), ?_⟩
    simp only [Sql.Expr.chains, if_true, List.nil_append] at hchains
    exact .cons ⟨rfl, hoperands⟩ hchains
  · refine ⟨hatoms, htruth (by decide), ?_⟩
    simp only [Sql.Expr.chains, if_true, List.nil_append] at hchains
    exact .cons ⟨rfl, hoperands⟩ hchains

theorem readingOf_chain {op : Sql.BinaryOp} {c : Connective} (hop : op.joins c) (l r : Sql.Expr) :
    readingOf (.binary l op r) = .chain c (readingOf l) (readingOf r) := by
  obtain ⟨rfl, rfl⟩ | ⟨rfl, rfl⟩ := Sql.BinaryOp.joins_iff.1 hop <;> rfl

theorem Reading.Agrees.chain {op : Sql.BinaryOp} {c : Connective} (hop : op.joins c) {l r : Sql.Expr}
    (hl : (readingOf l).Agrees l) (hr : (readingOf r).Agrees r) :
    (readingOf (.binary l op r)).Agrees (.binary l op r) := by
  have hreading := readingOf_chain hop l r
  have hargs : ∀ ts, (do return (← (readingOf l).operands c) ++ (← (readingOf r).operands c)) =
      Except.ok ts → Brings c (.binary l op r) ts := by
    intro ts h
    obtain ⟨ls, hls, h⟩ := bind_eq_ok h
    obtain ⟨rs, hrs, h⟩ := bind_eq_ok h
    cases h
    exact (hl.operands c ls hls).append hop (hr.operands c rs hrs)
  have hnode : ∀ t, (readingOf (.binary l op r)).whole = .ok t → Layout.Agrees (.binary l op r) t := by
    intro t h
    rw [hreading] at h
    obtain ⟨ts, hts, h⟩ := bind_eq_ok h
    cases h
    exact (hargs ts hts).chain hop
  refine ⟨hnode, fun t h => hnode t (by rw [hreading] at h ⊢; exact h), fun c' ts h => ?_⟩
  by_cases hc : c' = c
  · subst hc
    rw [hreading] at h
    simp only [Reading.chain, if_true] at h
    exact hargs ts h
  · have hsingle : ∃ t, LaysOut (.binary l op r) t ∧ ts = [t] := by
      unfold LaysOut
      rw [hreading] at h ⊢
      simp only [Reading.chain, if_neg hc] at h
      obtain ⟨t, ht, h⟩ := bind_eq_ok h
      cases h
      exact ⟨t, ht, rfl⟩
    obtain ⟨t, ht, rfl⟩ := hsingle
    exact .single (hnode t ht) ht (Sql.Expr.operands_chain_ne hop hc) (Sql.Expr.chains_chain_ne hop hc)

theorem Reading.Agrees.not {e : Sql.Expr} (h : (readingOf e).Agrees e) :
    (readingOf (.unary .not e)).Agrees (.unary .not e) := by
  refine .same rfl (fun t ht => ?_) (fun _ => rfl) (fun _ => rfl)
  obtain ⟨u, hu, ht⟩ := bind_eq_ok ht
  cases ht
  obtain ⟨hatoms, htruth, hchains⟩ := h.bare u hu
  refine ⟨?_, fun v k => ?_, ?_⟩
  · simpa [Sql.Expr.atoms, Expr.atoms, exprAtoms] using hatoms
  · simp [Expr.truth, truths, Connective.fold, Sql.Expr.truth, htruth]
  · simpa [Sql.Expr.chains, Expr.chains, exprChains] using hchains

/-! ### Atoms -/

/-- Anything but a condition that is made of others. -/
def Expr.isAtom : Expr → Bool
  | .logic _ _ => false
  | .nested _ => false
  | _ => true

theorem agrees_of_isAtom {e : Sql.Expr} {t : Expr} (he : e.isAtom) (ht : t.isAtom) (h : LaysOut e t) :
    Agrees e t := by
  have hread : e.atoms = [e] ∧ (∀ v k, e.truth v k = v k) ∧ e.chains none = [] := by
    unfold Sql.Expr.isAtom at he
    split at he <;> simp_all [Sql.Expr.atoms, Sql.Expr.truth, Sql.Expr.chains]
  have htree : t.atoms = [t] ∧ (∀ v k, t.truth v k = v k) ∧ t.chains = [] := by
    unfold Expr.isAtom at ht
    split at ht <;> simp_all [Expr.atoms, Expr.truth, Expr.chains]
  obtain ⟨hatoms, htruth, hchains⟩ := hread
  obtain ⟨hatoms', htruth', hchains'⟩ := htree
  refine ⟨?_, fun v k => (htruth' v k).trans (htruth v k).symm, ?_⟩
  · rw [hatoms, hatoms']
    exact .cons h .nil
  · rw [hchains, hchains']
    exact .nil

/-- Every result of a computation is an atom. -/
def YieldsAtoms (x : Outcome Expr) : Prop :=
  ∀ t, x = .ok t → t.isAtom

theorem YieldsAtoms.pure {t : Expr} (h : t.isAtom) : YieldsAtoms (Pure.pure t) := by
  rintro _ ⟨⟩
  exact h

theorem YieldsAtoms.bind {α : Type} {x : Outcome α} {f : α → Outcome Expr}
    (h : ∀ a, YieldsAtoms (f a)) : YieldsAtoms (x >>= f) := by
  intro t ht
  obtain ⟨a, -, ht⟩ := bind_eq_ok ht
  exact h a t ht

theorem isAtom_ofValue (v : Sql.Value) : (Expr.ofValue v).isAtom := by
  unfold Expr.ofValue
  split <;> try rfl
  split <;> rfl

theorem isAtom_ofIdent (i : Sql.Ident) : (Expr.ofIdent i).isAtom := by
  unfold Expr.ofIdent
  split <;> rfl

theorem isAtom_ofPath (names : List Sql.Ident) : (Expr.ofPath names).isAtom := by
  unfold Expr.ofPath
  split <;> rfl

theorem isAtom_ofTest (e : Expr) (negated : Bool) (truth : Sql.Truth) :
    (Expr.ofTest e negated truth).isAtom := by
  cases truth <;> rfl

theorem isAtom_ofQuantified (k : Sql.Quantifier) (op : String) (l r : Expr) :
    (Expr.ofQuantified k op l r).isAtom := by
  unfold Expr.ofQuantified
  split <;> rfl

theorem isAtom_ofCall (c : Call) : (Expr.ofCall c).isAtom := by
  unfold Expr.ofCall
  split
  · simp only
    split <;> rfl
  · rfl

/-- An atom is the same in every place, and its layout is an atom. -/
theorem readingOf_atom {e : Sql.Expr} (h : e.isAtom) :
    readingOf e = .same (readingOf e).whole ∧ YieldsAtoms (readingOf e).whole := by
  cases e with
  | ident i => exact ⟨rfl, .pure (isAtom_ofIdent i)⟩
  | path names => exact ⟨rfl, .pure (isAtom_ofPath names)⟩
  | value v => exact ⟨rfl, .pure (isAtom_ofValue v)⟩
  | binary l op r =>
    cases op with
    | other text => exact ⟨rfl, .bind fun _ => .bind fun _ => .pure rfl⟩
    | _ => cases h
  | unary op e =>
    cases op with
    | not => cases h
    | _ => exact ⟨rfl, .bind fun _ => .pure rfl⟩
  | nested e => cases h
  | is e negated truth => exact ⟨rfl, .bind fun _ => .pure (isAtom_ofTest _ _ _)⟩
  | quantified l op k r => exact ⟨rfl, .bind fun _ => .bind fun _ => .pure (isAtom_ofQuantified _ _ _ _)⟩
  | bareCall name =>
    refine ⟨rfl, .pure ?_⟩
    split
    · split <;> rfl
    · rfl
  | queryCall name q =>
    simp only [readingOf]
    split
    · split
      · exact ⟨rfl, .bind fun _ => .pure rfl⟩
      · exact ⟨rfl, .pure rfl⟩
    · exact ⟨rfl, .pure rfl⟩
  | call name odbc duplicates args before orderBy clauses withinGroup filter nulls window =>
    refine ⟨rfl, ?_⟩
    simp only [readingOf, Reading.same]
    split
    · exact .pure rfl
    · refine .bind fun order => ?_
      split
      · exact .pure rfl
      · refine .bind fun parts => ?_
        split
        · exact .pure rfl
        · exact .bind fun _ => .bind fun _ => .bind fun _ => .pure (isAtom_ofCall _)
  | inList | inQuery | cast | existsIn | subquery | pattern | distinctFrom | array =>
    exact ⟨rfl, by first | exact .bind fun _ => .pure rfl | exact .bind fun _ => .bind fun _ => .pure rfl⟩
  | between | caseOf => exact ⟨rfl, .bind fun _ => .bind fun _ => .bind fun _ => .pure rfl⟩
  | star | pathStar | namedArg | access | phrase => exact ⟨rfl, .pure rfl⟩

theorem readingOf_agrees (e : Sql.Expr) : (readingOf e).Agrees e := by
  induction e using Sql.Expr.cases_condition with
  | chain op c l r hop hl hr => exact .chain hop hl hr
  | not e h => exact h.not
  | nested e h => exact h.nested
  | atom e he =>
    obtain ⟨hsame, hyields⟩ := readingOf_atom he
    exact .same hsame (fun t ht => agrees_of_isAtom he (hyields t ht) ht) (Sql.Expr.operands_atom he)
      fun c => by rw [Sql.Expr.chains_atom he, Sql.Expr.chains_atom he]

/-- One operand. -/
theorem operands_single {e : Sql.Expr} {c : Connective} (h : e.operands c = [e])
    (hreading : (readingOf e).operands c = (do return [← (readingOf e).whole])) :
    (readingOf e).operands c = (e.operands c).mapM fun x => (readingOf x).whole := by
  rw [h, hreading]
  simp

/-- The operands that an expression brings to a chain are the layouts of those that were read, and
there are none if one of these has no layout. -/
theorem readingOf_operands (c : Connective) (e : Sql.Expr) :
    (readingOf e).operands c = (e.operands c).mapM fun x => (readingOf x).whole := by
  induction e using Sql.Expr.cases_condition with
  | chain op c' l r hop hl hr =>
    by_cases hc : c = c'
    · subst hc
      simp only [readingOf_chain hop, Reading.chain, if_true, hl, hr, Sql.Expr.operands_chain hop,
        List.mapM_append]
    · refine operands_single (Sql.Expr.operands_chain_ne hop hc) ?_
      simp only [readingOf_chain hop, Reading.chain, if_neg hc]
  | not e h => exact operands_single rfl rfl
  | nested e h => exact h
  | atom e he =>
    refine operands_single (Sql.Expr.operands_atom he c) ?_
    conv_lhs => rw [(readingOf_atom he).1]
    rfl

/-- The layout of a chain is made of those of its operands. -/
theorem readingOf_chain_whole {op : Sql.BinaryOp} {c : Connective} (hop : op.joins c) (l r : Sql.Expr) :
    (readingOf (.binary l op r)).whole = (do
      return .logic c (← ((Sql.Expr.binary l op r).operands c).mapM fun x => (readingOf x).whole)) := by
  rw [← readingOf_operands, readingOf_chain hop]
  simp [Reading.chain]

/-- The layout of a condition has the atoms of the condition, in their order, and whatever their values
are it has the value of the condition. Each of its chains holds the operands of one largest chain of the
condition. A chain whose operands are associated in another way, or have other parentheses around them,
has the same layout. -/
theorem layout_keeps_condition {e : Sql.Expr} {t : Expr} (h : LaysOut e t) :
    List.Forall₂ LaysOut e.atoms t.atoms ∧ (∀ v, t.truth v 0 = e.truth v 0) ∧
    List.Forall₂ SameChain (e.chains none) t.chains ∧
    ∀ op c l r l' r', op.joins c → e = .binary l op r → Sql.Regrouped op e (.binary l' op r') →
      LaysOut (.binary l' op r') t := by
  obtain ⟨hatoms, htruth, hchains⟩ := (readingOf_agrees e).whole t h
  refine ⟨hatoms, fun v => htruth v 0, hchains, ?_⟩
  rintro op c l r l' r' hop rfl hgrouped
  rw [LaysOut, readingOf_chain_whole hop, ← hgrouped.operands_eq hop, ← readingOf_chain_whole hop]
  exact h

/-- Two spellings of `a AND b AND (c OR NOT d)`. -/
theorem layout_keeps_mixed_condition :
    let x (name : String) : Sql.Expr := .ident ⟨name, none⟩
    let y (name : String) : Expr := .column [name] false
    let last : Sql.Expr := .nested (.binary (x "c") .or (.unary .not (.nested (.nested (x "d")))))
    let e : Sql.Expr := .binary (.binary (x "a") .and (.nested (x "b"))) .and last
    let e' : Sql.Expr := .binary (x "a") .and (.nested (.binary (x "b") .and last))
    let t : Expr := .logic .and [y "a", y "b", .logic .or [y "c", .logic .not [y "d"]]]
    LaysOut e t ∧ LaysOut e' t ∧ ∀ v, t.truth v 0 = e.truth v 0 := by
  intro x y last e e' t
  have hregrouped : Sql.Regrouped .and e e' := by
    refine .trans (.assoc _ _ _) (.binary (.refl _) ?_)
    exact .trans (.binary (.nested _) (.refl _)) (.symm (.nested _))
  obtain ⟨-, htruth, -, hgroups⟩ := layout_keeps_condition (e := e) (t := t) rfl
  exact ⟨rfl, hgroups .and .and _ _ _ _ rfl rfl hregrouped, htruth⟩

end Layout

end SqlLayout
