import Mathlib

/-!
Replacing pieces of a text, all at once or one after the other. One after the other gives the same as
all at once exactly if every piece is looked for where the earlier replacements have moved it.
-/

namespace SqlLayout.Host

variable {α : Type}

/-- A piece of a text, given by the numbers of its first element and of the one after its last, and
what takes its place. -/
structure Splice (α : Type) where
  start : Nat
  stop : Nat
  new : List α

/-- Two pieces with an element between them. -/
def Splice.Apart (e f : Splice α) : Prop :=
  e.stop < f.start ∨ f.stop < e.start

/-- What stands in front of the element with the given number: the new piece, if an old one starts
there. -/
def newAt (es : List (Splice α)) (i : Nat) : List α :=
  match es.find? (·.start == i) with
  | some e => e.new
  | none => []

/-- The text with all pieces replaced at once; `i` is the number of its first element. -/
def replaceAll (es : List (Splice α)) : Nat → List α → List α
  | _, [] => []
  | i, x :: r =>
    newAt es i ++ (if es.any fun e => e.start ≤ i && i < e.stop then [] else [x]) ++
      replaceAll es (i + 1) r

theorem replaceAll_append (es : List (Splice α)) (i : Nat) (a b : List α) :
    replaceAll es i (a ++ b) = replaceAll es i a ++ replaceAll es (i + a.length) b := by
  induction a generalizing i with
  | nil => rfl
  | cons x r ih =>
    simp only [List.cons_append, replaceAll, ih, List.append_assoc, List.length_cons]
    congr 4
    omega

theorem newAt_eq_nil {es : List (Splice α)} {i : Nat} (h : ∀ e ∈ es, e.start ≠ i) :
    newAt es i = [] := by
  have hfind : es.find? (·.start == i) = none := by simpa using h
  rw [newAt, hfind]

/-- Pieces that are not empty and do not touch each other. -/
structure Separate (es : List (Splice α)) : Prop where
  proper : ∀ e ∈ es, e.start < e.stop
  apart : es.Pairwise Splice.Apart

instance : Std.Symm (Splice.Apart (α := α)) where
  symm _ _ := Or.symm

theorem Separate.apart_of_ne {es : List (Splice α)} (h : Separate es) {e f : Splice α} (he : e ∈ es)
    (hf : f ∈ es) (hne : f ≠ e) : f.Apart e :=
  h.apart.forall hf he hne

theorem Separate.tail {e : Splice α} {es : List (Splice α)} (h : Separate (e :: es)) :
    Separate es where
  proper f hf := h.proper f (List.mem_cons_of_mem e hf)
  apart := (List.pairwise_cons.1 h.apart).2

/-- Elements outside of all pieces stay. -/
theorem replaceAll_of_outside {es : List (Splice α)} (hes : Separate es) {i : Nat} {a : List α}
    (h : ∀ e ∈ es, e.stop ≤ i ∨ i + a.length ≤ e.start) : replaceAll es i a = a := by
  induction a generalizing i with
  | nil => rfl
  | cons x r ih =>
    rw [List.length_cons] at h
    have hnew : newAt es i = [] := by
      apply newAt_eq_nil
      intro e he
      have := hes.proper e he
      have := h e he
      omega
    have hkeep : (es.any fun e => e.start ≤ i && i < e.stop) = false := by
      rw [List.any_eq_false]
      intro e he
      have := h e he
      simp only [Bool.and_eq_true, decide_eq_true_eq, not_and]
      omega
    have hrest : replaceAll es (i + 1) r = r := by
      apply ih
      intro e he
      have := h e he
      omega
    simp [replaceAll, hnew, hkeep, hrest]

/-- The elements of a piece after its first one go away. -/
theorem replaceAll_of_inside {es : List (Splice α)} (hes : Separate es) {e : Splice α} (he : e ∈ es)
    {i : Nat} {a : List α} (hi : e.start < i) (hstop : i + a.length ≤ e.stop) :
    replaceAll es i a = [] := by
  induction a generalizing i with
  | nil => rfl
  | cons x r ih =>
    rw [List.length_cons] at hstop
    have hnew : newAt es i = [] := by
      apply newAt_eq_nil
      intro f hf
      by_cases hfe : f = e
      · subst hfe
        omega
      · have := hes.proper f hf
        have : f.stop < e.start ∨ e.stop < f.start := hes.apart_of_ne he hf hfe
        omega
    have hgone : (es.any fun e => e.start ≤ i && i < e.stop) = true := by
      rw [List.any_eq_true]
      refine ⟨e, he, ?_⟩
      simp only [Bool.and_eq_true, decide_eq_true_eq]
      omega
    simp only [replaceAll, hnew, hgone, if_true, List.nil_append]
    exact ih (by omega) (by omega)

/-- A piece is replaced by the new one. -/
theorem replaceAll_piece {es : List (Splice α)} (hes : Separate es) {e : Splice α} (he : e ∈ es)
    {a : List α} (ha : e.start + a.length = e.stop) : replaceAll es e.start a = e.new := by
  have hlt := hes.proper e he
  cases a with
  | nil => simp at ha; omega
  | cons x r =>
    rw [List.length_cons] at ha
    have hfind : es.find? (·.start == e.start) = some e := by
      cases hf : es.find? (·.start == e.start) with
      | none =>
        rw [List.find?_eq_none] at hf
        exact absurd (by simp) (hf e he)
      | some f =>
        have hmem := List.mem_of_find?_eq_some hf
        have hstart : f.start = e.start := by simpa using List.find?_some hf
        by_cases hfe : f = e
        · rw [hfe]
        · have := hes.proper f hmem
          have : f.stop < e.start ∨ e.stop < f.start := hes.apart_of_ne he hmem hfe
          omega
    have hgone : (es.any fun f => f.start ≤ e.start && e.start < f.stop) = true := by
      rw [List.any_eq_true]
      exact ⟨e, he, by simp [hlt]⟩
    have hnew : newAt es e.start = e.new := by rw [newAt, hfind]
    have hrest := replaceAll_of_inside hes he (Nat.lt_succ_self e.start) (a := r) (by omega)
    simp only [replaceAll, hnew, hgone, if_true, List.append_nil, hrest]

/-- A text is what stands before a piece, the piece, and what stands after it. -/
theorem take_piece_drop (text : List α) {s t : Nat} (h : s ≤ t) :
    text = text.take s ++ ((text.drop s).take (t - s) ++ text.drop t) := by
  have hrest : (text.drop s).take (t - s) ++ text.drop t = text.drop s := by
    have := List.take_append_drop (t - s) (text.drop s)
    rwa [List.drop_drop, Nat.add_sub_of_le h] at this
  rw [hrest, List.take_append_drop]

/-- A text around one of the pieces. -/
theorem replaceAll_around {es : List (Splice α)} (hes : Separate es) {e : Splice α} (he : e ∈ es)
    {text : List α} (hstop : e.stop ≤ text.length) :
    replaceAll es 0 text =
      replaceAll es 0 (text.take e.start) ++ (e.new ++ replaceAll es e.stop (text.drop e.stop)) := by
  have hlt := hes.proper e he
  have hfront : (text.take e.start).length = e.start := List.length_take_of_le (by omega)
  have hpiece : ((text.drop e.start).take (e.stop - e.start)).length = e.stop - e.start := by
    rw [List.length_take, List.length_drop]
    omega
  conv_lhs => rw [take_piece_drop text (Nat.le_of_lt hlt)]
  rw [replaceAll_append, replaceAll_append, hfront, hpiece, Nat.zero_add,
    Nat.add_sub_of_le (Nat.le_of_lt hlt), replaceAll_piece hes he (by omega)]

/-- A piece that is not among those replaced stays. -/
theorem replaceAll_around_kept {es : List (Splice α)} {e : Splice α} (hes : Separate (e :: es))
    {text : List α} (hstop : e.stop ≤ text.length) :
    replaceAll es 0 text = replaceAll es 0 (text.take e.start) ++
      ((text.drop e.start).take (e.stop - e.start) ++ replaceAll es e.stop (text.drop e.stop)) := by
  have hlt := hes.proper e List.mem_cons_self
  have hfront : (text.take e.start).length = e.start := List.length_take_of_le (by omega)
  have hpiece : ((text.drop e.start).take (e.stop - e.start)).length = e.stop - e.start := by
    rw [List.length_take, List.length_drop]
    omega
  have hkept : replaceAll es e.start ((text.drop e.start).take (e.stop - e.start)) =
      (text.drop e.start).take (e.stop - e.start) := by
    apply replaceAll_of_outside hes.tail
    intro f hf
    have hapart : e.stop < f.start ∨ f.stop < e.start := (List.pairwise_cons.1 hes.apart).1 f hf
    omega
  conv_lhs => rw [take_piece_drop text (Nat.le_of_lt hlt)]
  rw [replaceAll_append, replaceAll_append, hfront, hpiece, Nat.zero_add,
    Nat.add_sub_of_le (Nat.le_of_lt hlt), hkept]

/-- A piece matters only where it stands. -/
theorem replaceAll_cons {es : List (Splice α)} {e : Splice α} (hlt : e.start < e.stop) {i : Nat}
    {a : List α} (h : e.stop ≤ i ∨ i + a.length ≤ e.start) :
    replaceAll (e :: es) i a = replaceAll es i a := by
  induction a generalizing i with
  | nil => rfl
  | cons x r ih =>
    rw [List.length_cons] at h
    have hne : e.start ≠ i := by omega
    have hnew : newAt (e :: es) i = newAt es i := by simp [newAt, hne]
    have hany : ((e :: es).any fun e => e.start ≤ i && i < e.stop) =
        es.any fun e => e.start ≤ i && i < e.stop := by
      simp only [List.any_cons, Bool.or_eq_right_iff_imp, Bool.and_eq_true, decide_eq_true_eq]
      omega
    simp only [replaceAll, hnew, hany]
    rw [ih (by omega)]

/-- The piece at a later place. -/
def Splice.shift (k : Nat) (e : Splice α) : Splice α :=
  { e with start := e.start + k, stop := e.stop + k }

theorem newAt_shift (k : Nat) (es : List (Splice α)) (i : Nat) :
    newAt (es.map (Splice.shift k)) (i + k) = newAt es i := by
  have hstart : ((fun e : Splice α => e.start == i + k) ∘ Splice.shift k) = fun e => e.start == i := by
    funext e
    simp [Splice.shift, Bool.beq_eq_decide_eq]
  rw [newAt, newAt, List.find?_map, hstart]
  cases es.find? fun e => e.start == i <;> rfl

/-- What is replaced does not depend on where the text stands. -/
theorem replaceAll_shift (k : Nat) (es : List (Splice α)) (i : Nat) (text : List α) :
    replaceAll (es.map (Splice.shift k)) (i + k) text = replaceAll es i text := by
  induction text generalizing i with
  | nil => rfl
  | cons x r ih =>
    have hinside : ((es.map (Splice.shift k)).any fun e => e.start ≤ i + k && i + k < e.stop) =
        es.any fun e => e.start ≤ i && i < e.stop := by
      rw [List.any_map]
      congr 1
      funext e
      simp [Splice.shift]
    rw [replaceAll, replaceAll, newAt_shift, hinside, Nat.add_right_comm, ih]

/-! ### One after the other -/

/-- How many elements more than before stand in front of an element once the pieces before it are
replaced. -/
def drift (es : List (Splice α)) (i : Nat) : Int :=
  ((es.filter (·.stop ≤ i)).map fun e => (e.new.length : Int) - (e.stop - e.start : Nat)).sum

theorem drift_cons (e : Splice α) (es : List (Splice α)) (i : Nat) :
    drift (e :: es) i =
      (if e.stop ≤ i then (e.new.length : Int) - (e.stop - e.start : Nat) else 0) + drift es i := by
  by_cases h : e.stop ≤ i
  · simp [drift, h]
  · simp [drift, h]

/-- Pieces that end later move nothing. -/
theorem drift_eq_zero {es : List (Splice α)} {i : Nat} (h : ∀ e ∈ es, i < e.stop) :
    drift es i = 0 := by
  induction es with
  | nil => rfl
  | cons e es ih =>
    have he := h e List.mem_cons_self
    rw [drift_cons, if_neg (by omega), ih fun f hf => h f (List.mem_cons_of_mem e hf), Int.add_zero]

/-- A text around a piece that is new among those replaced. -/
theorem replaceAll_cons_around {es : List (Splice α)} {e : Splice α} (hes : Separate (e :: es))
    {text : List α} (hstop : e.stop ≤ text.length) :
    replaceAll (e :: es) 0 text =
      replaceAll es 0 (text.take e.start) ++ (e.new ++ replaceAll es e.stop (text.drop e.stop)) := by
  have hlt := hes.proper e List.mem_cons_self
  have hfront : (text.take e.start).length = e.start := List.length_take_of_le (by omega)
  rw [replaceAll_around hes List.mem_cons_self hstop, replaceAll_cons hlt (by omega),
    replaceAll_cons hlt (.inl (Nat.le_refl _))]

/-- The length of the text in front of an element. -/
theorem length_replaceAll {es : List (Splice α)} (hes : Separate es) {a : List α}
    (h : ∀ e ∈ es, e.stop ≤ a.length ∨ a.length ≤ e.start) :
    ((replaceAll es 0 a).length : Int) = a.length + drift es a.length := by
  induction es with
  | nil =>
    rw [replaceAll_of_outside hes (by simp)]
    simp [drift]
  | cons e es ih =>
    have hlt := hes.proper e List.mem_cons_self
    have ih := ih hes.tail fun f hf => h f (List.mem_cons_of_mem e hf)
    rw [drift_cons]
    obtain hbefore | hafter := h e List.mem_cons_self
    · rw [if_pos hbefore, replaceAll_cons_around hes hbefore]
      rw [replaceAll_around_kept hes hbefore] at ih
      simp only [List.length_append, List.length_take, List.length_drop] at ih ⊢
      omega
    · rw [if_neg (by omega), replaceAll_cons hlt (by omega)]
      omega

/-- A piece with the places where it is looked for. -/
structure Cut (α : Type) extends Splice α where
  first : Nat
  last : Nat

/-- The text after one cut. -/
def Cut.apply (c : Cut α) (text : List α) : List α :=
  text.take c.first ++ c.new ++ text.drop c.last

/-- The text after all cuts, the last one first. -/
def cutAll (cs : List (Cut α)) (text : List α) : List α :=
  cs.foldr Cut.apply text

/-- Every piece is looked for where the later ones have moved it. -/
def InPlace : List (Cut α) → Prop
  | [] => True
  | c :: cs =>
    ((c.first : Int) = c.start + drift (cs.map Cut.toSplice) c.start ∧
      (c.last : Int) = c.stop + drift (cs.map Cut.toSplice) c.start) ∧ InPlace cs

/-- The text with all the pieces of the cuts replaced at once. -/
def replaceCuts (cs : List (Cut α)) (text : List α) : List α :=
  replaceAll (cs.map Cut.toSplice) 0 text

/-- The number of a piece's first element once the others are replaced. -/
theorem length_replaceAll_take {es : List (Splice α)} {e : Splice α} (hes : Separate (e :: es))
    {text : List α} (hstop : e.stop ≤ text.length) :
    ((replaceAll es 0 (text.take e.start)).length : Int) = e.start + drift es e.start := by
  have hlt := hes.proper e List.mem_cons_self
  have hfront : (text.take e.start).length = e.start := List.length_take_of_le (by omega)
  have hlength := length_replaceAll hes.tail (a := text.take e.start) (by
    intro f hf
    have hapart : e.stop < f.start ∨ f.stop < e.start := (List.pairwise_cons.1 hes.apart).1 f hf
    omega)
  rwa [hfront] at hlength

/-- Cuts in their places replace the pieces all at once. -/
theorem cutAll_eq_replaceCuts {cs : List (Cut α)} (hcs : Separate (cs.map Cut.toSplice))
    {text : List α} (hstop : ∀ c ∈ cs, c.stop ≤ text.length) (h : InPlace cs) :
    cutAll cs text = replaceCuts cs text := by
  induction cs with
  | nil => exact (replaceAll_of_outside hcs (by simp)).symm
  | cons c cs ih =>
    obtain ⟨⟨hfirst, hlast⟩, hrest⟩ := h
    have hc := hstop c List.mem_cons_self
    have hlt := hcs.proper c.toSplice List.mem_cons_self
    have hmoved := length_replaceAll_take hcs hc
    have hkept := replaceAll_around_kept hcs hc
    have htail := ih hcs.tail (fun d hd => hstop d (List.mem_cons_of_mem c hd)) hrest
    rw [cutAll, List.foldr_cons, ← cutAll, htail, Cut.apply, replaceCuts, replaceCuts, List.map_cons,
      replaceAll_cons_around hcs hc, hkept]
    have hfront : c.first =
        (replaceAll (cs.map Cut.toSplice) 0 (text.take c.start)).length := by omega
    have hpiece : c.last = (replaceAll (cs.map Cut.toSplice) 0 (text.take c.start) ++
        (text.drop c.start).take (c.stop - c.start)).length := by
      rw [List.length_append, List.length_take, List.length_drop]
      omega
    rw [hfront, List.take_left, hpiece, ← List.append_assoc _ _ (replaceAll _ _ _), List.drop_left,
      List.append_assoc]

/-! ### Cuts out of their places -/

theorem take_append_drop_sublist (text : List α) {a b : Nat} (h : a ≤ b) :
    (text.take a ++ text.drop b).Sublist text := by
  have hdrop : text.drop b = (text.drop a).drop (b - a) := by
    rw [List.drop_drop, Nat.add_sub_of_le h]
  conv_rhs => rw [← List.take_append_drop a text]
  rw [hdrop]
  exact (List.Sublist.refl _).append (List.drop_sublist _ _)

/-- Cuts keep elements of the text and bring their new pieces. -/
theorem cutAll_subperm {cs : List (Cut α)} (hcs : ∀ c ∈ cs, c.first ≤ c.last) (text : List α) :
    (cutAll cs text).Subperm (text ++ cs.flatMap fun c => c.new) := by
  induction cs with
  | nil => simpa [cutAll] using List.Subperm.refl text
  | cons c cs ih =>
    have ih := ih fun d hd => hcs d (List.mem_cons_of_mem c hd)
    have hsub := (take_append_drop_sublist (cutAll cs text) (hcs c List.mem_cons_self)).subperm
    have hsplit : (cutAll (c :: cs) text).Perm
        (((cutAll cs text).take c.first ++ (cutAll cs text).drop c.last) ++ c.new) := by
      rw [cutAll, List.foldr_cons, ← cutAll, Cut.apply, List.append_assoc, List.append_assoc]
      exact List.perm_append_comm.append_left _
    have hjoin : ((text ++ cs.flatMap fun c => c.new) ++ c.new).Perm
        (text ++ (c :: cs).flatMap fun c => c.new) := by
      rw [List.append_assoc, List.flatMap_cons]
      exact List.perm_append_comm.append_left _
    exact hsplit.subperm.trans
      (((hsub.trans ih).append (List.Subperm.refl c.new)).trans hjoin.subperm)

/-- What is left of the text after cuts was there before. -/
theorem sublist_of_sublist_cutAll {cs : List (Cut α)} (hcs : ∀ c ∈ cs, c.first ≤ c.last)
    {text l : List α} (hl : ∀ x ∈ l, ∀ c ∈ cs, x ∉ c.new) (h : l.Sublist (cutAll cs text)) :
    l.Sublist text := by
  induction cs with
  | nil => exact h
  | cons c cs ih =>
    apply ih (fun d hd => hcs d (List.mem_cons_of_mem c hd))
      (fun x hx d hd => hl x hx d (List.mem_cons_of_mem c hd))
    rw [cutAll, List.foldr_cons, ← cutAll, Cut.apply] at h
    obtain ⟨l₁₂, l₃, rfl, h₁₂, h₃⟩ := List.sublist_append_iff.1 h
    obtain ⟨l₁, l₂, rfl, h₁, h₂⟩ := List.sublist_append_iff.1 h₁₂
    have hnil : l₂ = [] := by
      cases l₂ with
      | nil => rfl
      | cons x r =>
        exact absurd (h₂.subset List.mem_cons_self) (hl x (by simp) c List.mem_cons_self)
    subst hnil
    rw [List.append_nil]
    exact (h₁.append h₃).trans (take_append_drop_sublist _ (hcs c List.mem_cons_self))

theorem not_mem_of_nodup {a b : List α} {n : α} (h : (a ++ n :: b).Nodup) : n ∉ a ∧ n ∉ b := by
  have hmem := (List.nodup_cons.1 (List.nodup_middle.1 h)).1
  rw [List.mem_append, not_or] at hmem
  exact hmem

/-- What comes before an element stands to its left. -/
theorem mem_left_of_sublist {a b : List α} {x n : α} (hnodup : (a ++ n :: b).Nodup)
    (h : [x, n].Sublist (a ++ n :: b)) : x ∈ a := by
  obtain ⟨hna, hnb⟩ := not_mem_of_nodup hnodup
  obtain ⟨l₁, l₂, heq, h₁, h₂⟩ := List.sublist_append_iff.1 h
  match l₁ with
  | [] =>
    subst heq
    cases h₂ with
    | cons _ h₂ => exact absurd (h₂.subset (by simp)) hnb
    | cons_cons _ h₂ => exact absurd (h₂.subset (by simp)) hnb
  | [y] =>
    simp only [List.cons_append, List.cons.injEq] at heq
    rw [heq.1]
    exact h₁.subset List.mem_cons_self
  | y :: z :: r =>
    simp only [List.cons_append, List.cons.injEq] at heq
    rw [heq.2.1] at hna
    exact absurd (h₁.subset (by simp)) hna

/-- What comes after an element stands to its right. -/
theorem mem_right_of_sublist {a b : List α} {n y : α} (hnodup : (a ++ n :: b).Nodup)
    (h : [n, y].Sublist (a ++ n :: b)) : y ∈ b := by
  have hreverse : [y, n].Sublist (b.reverse ++ n :: a.reverse) := by
    simpa using h.reverse
  have hnodup' : (b.reverse ++ n :: a.reverse).Nodup := by
    simpa using List.nodup_reverse.2 hnodup
  simpa using mem_left_of_sublist hnodup' hreverse

theorem length_lt_of_mem_take {a b : List α} {x : α} {n : Nat} (hnodup : (a ++ x :: b).Nodup)
    (h : x ∈ (a ++ x :: b).take n) : a.length < n := by
  by_contra hle
  rw [List.take_append_of_le_length (by omega)] at h
  exact (not_mem_of_nodup hnodup).1 (List.mem_of_mem_take h)

theorem le_length_of_mem_drop {a b : List α} {y : α} {n : Nat} (hnodup : (a ++ y :: b).Nodup)
    (h : y ∈ (a ++ y :: b).drop n) : n ≤ a.length := by
  by_contra hlt
  have hdrop : (a ++ y :: b).drop n = b.drop (n - (a.length + 1)) := by
    have happend : a ++ y :: b = (a ++ [y]) ++ b := by simp
    rw [happend, List.drop_append, List.drop_eq_nil_of_le (by simp; omega)]
    simp
  rw [hdrop] at h
  exact (not_mem_of_nodup hnodup).2 (List.mem_of_mem_drop h)

/-- The last element before a piece stays. -/
theorem replaceAll_take_last {es : List (Splice α)} (hes : Separate es) {e : Splice α}
    (he : ∀ f ∈ es, f = e ∨ f.Apart e) (hlt : e.start < e.stop) {text : List α} (hpos : 0 < e.start)
    (hindex : e.start - 1 < text.length) :
    ∃ a, replaceAll es 0 (text.take e.start) = a ++ [text[e.start - 1]] := by
  have htake : text.take e.start = text.take (e.start - 1) ++ [text[e.start - 1]] := by
    have := List.take_succ_eq_append_getElem hindex
    rwa [Nat.sub_add_cancel hpos] at this
  refine ⟨replaceAll es 0 (text.take (e.start - 1)), ?_⟩
  rw [htake, replaceAll_append]
  congr 1
  apply replaceAll_of_outside hes
  intro f hf
  rw [List.length_take, List.length_singleton]
  obtain rfl | h := he f hf
  · omega
  · have h : f.stop < e.start ∨ e.stop < f.start := h
    omega

/-- The first element after a piece stays. -/
theorem replaceAll_drop_first {es : List (Splice α)} (hes : Separate es) {e : Splice α}
    (he : ∀ f ∈ es, f = e ∨ f.Apart e) (hlt : e.start < e.stop) {text : List α}
    (hstop : e.stop < text.length) :
    ∃ b, replaceAll es e.stop (text.drop e.stop) = text[e.stop] :: b := by
  refine ⟨replaceAll es (e.stop + 1) (text.drop (e.stop + 1)), ?_⟩
  have hdrop : text.drop e.stop = [text[e.stop]] ++ text.drop (e.stop + 1) :=
    List.drop_eq_getElem_cons hstop
  rw [hdrop, replaceAll_append, replaceAll_of_outside hes]
  · rfl
  · intro f hf
    rw [List.length_singleton]
    obtain rfl | h := he f hf
    · omega
    · have h : f.stop < e.start ∨ e.stop < f.start := h
      omega

/-- A cut with an element still to the left of its new piece starts after that element. -/
theorem Cut.lt_first {c : Cut α} {a b new : List α} {x n : α} (hnew : c.new = n :: new)
    (hnodup : (a ++ x :: b).Nodup) (hcut : (c.apply (a ++ x :: b)).Nodup)
    (h : [x, n].Sublist (c.apply (a ++ x :: b))) : a.length < c.first := by
  rw [Cut.apply, hnew, List.append_assoc, List.cons_append] at hcut h
  exact length_lt_of_mem_take hnodup (mem_left_of_sublist hcut h)

/-- A cut with an element still to the right of its new piece stops before that element. -/
theorem Cut.last_le {c : Cut α} {a b new : List α} {y n : α} (hnew : c.new = new ++ [n])
    (hnodup : (a ++ y :: b).Nodup) (hcut : (c.apply (a ++ y :: b)).Nodup)
    (h : [n, y].Sublist (c.apply (a ++ y :: b))) : c.last ≤ a.length := by
  have happly : c.apply (a ++ y :: b) =
      ((a ++ y :: b).take c.first ++ new) ++ n :: (a ++ y :: b).drop c.last := by
    simp [Cut.apply, hnew]
  rw [happly] at hcut h
  exact le_length_of_mem_drop hnodup (mem_right_of_sublist hcut h)

/-- The cuts of a text whose elements are all different, and different from those of the new
pieces: each takes away no less than its piece. -/
structure Marked (cs : List (Cut α)) (text : List α) : Prop where
  separate : Separate (cs.map Cut.toSplice)
  stop_lt : ∀ c ∈ cs, c.stop < text.length
  ordered : ∀ c ∈ cs, c.first ≤ c.last
  covers : ∀ c ∈ cs, c.stop - c.start ≤ c.last - c.first
  nonempty : ∀ c ∈ cs, c.new ≠ []
  nodup : (text ++ cs.flatMap fun c => c.new).Nodup

theorem Separate.sublist {es fs : List (Splice α)} (h : Separate fs) (hsub : es.Sublist fs) :
    Separate es where
  proper e he := h.proper e (hsub.subset he)
  apart := h.apart.sublist hsub

theorem Marked.append_right {pre post : List (Cut α)} {text : List α} (h : Marked (pre ++ post) text) :
    Marked post text where
  separate := h.separate.sublist ((List.sublist_append_right pre post).map _)
  stop_lt c hc := h.stop_lt c (List.mem_append_right pre hc)
  ordered c hc := h.ordered c (List.mem_append_right pre hc)
  covers c hc := h.covers c (List.mem_append_right pre hc)
  nonempty c hc := h.nonempty c (List.mem_append_right pre hc)
  nodup := by
    refine h.nodup.sublist ((List.Sublist.refl text).append ?_)
    rw [List.flatMap_append]
    exact List.sublist_append_right _ _

theorem Marked.tail {c : Cut α} {cs : List (Cut α)} {text : List α} (h : Marked (c :: cs) text) :
    Marked cs text := by
  rw [← List.singleton_append] at h
  exact h.append_right

theorem Marked.cutAll_nodup {cs : List (Cut α)} {text : List α} (h : Marked cs text) :
    (cutAll cs text).Nodup := by
  obtain ⟨l, hperm, hsub⟩ := cutAll_subperm h.ordered text
  exact hperm.nodup_iff.1 (h.nodup.sublist hsub)

/-- Elements of the text and of one of the new pieces are in no earlier cut's new piece. -/
theorem Marked.not_mem_new {pre post : List (Cut α)} {c d : Cut α} {text : List α} {x : α}
    (h : Marked (pre ++ c :: post) text) (hx : x ∈ text ∨ x ∈ c.new) (hd : d ∈ pre) : x ∉ d.new := by
  intro hmem
  have hnodup := h.nodup
  rw [List.flatMap_append, List.flatMap_cons] at hnodup
  have hpre : x ∈ pre.flatMap fun c => c.new := List.mem_flatMap.2 ⟨d, hd, hmem⟩
  obtain hx | hx := hx
  · exact (List.nodup_append.1 hnodup).2.2 x hx x (List.mem_append_left _ hpre) rfl
  · have hnodup := (List.nodup_append.1 hnodup).2.1
    exact (List.nodup_append.1 hnodup).2.2 x hpre x (List.mem_append_left _ hx) rfl

/-- Of elements of the text and of a cut's new piece, those left by all cuts were left by the cut. -/
theorem Marked.sublist_apply {pre post : List (Cut α)} {c : Cut α} {text l : List α}
    (h : Marked (pre ++ c :: post) text) (hl : ∀ x ∈ l, x ∈ text ∨ x ∈ c.new)
    (hsub : l.Sublist (cutAll (pre ++ c :: post) text)) :
    l.Sublist (c.apply (cutAll post text)) := by
  rw [cutAll, List.foldr_append, List.foldr_cons] at hsub
  exact sublist_of_sublist_cutAll (fun d hd => h.ordered d (List.mem_append_left _ hd))
    (fun x hx d hd => h.not_mem_new (hl x hx) hd) hsub

theorem Marked.apart {cs : List (Cut α)} {c : Cut α} {text : List α} (h : Marked cs text)
    (hc : c ∈ cs) : ∀ f ∈ cs.map Cut.toSplice, f = c.toSplice ∨ f.Apart c.toSplice := by
  intro f hf
  by_cases hne : f = c.toSplice
  · exact .inl hne
  · exact .inr (h.separate.apart_of_ne (List.mem_map_of_mem hc) hf hne)

/-- A cut starts no earlier than its piece. -/
theorem Marked.length_le_first {pre post : List (Cut α)} {c : Cut α} {text : List α}
    (h : Marked (pre ++ c :: post) text)
    (hall : cutAll (pre ++ c :: post) text = replaceCuts (pre ++ c :: post) text)
    (hpost : cutAll post text = replaceCuts post text) :
    (replaceAll (post.map Cut.toSplice) 0 (text.take c.start)).length ≤ c.first := by
  have hmem : c ∈ pre ++ c :: post := List.mem_append_right pre List.mem_cons_self
  have hc : Marked (c :: post) text := h.append_right
  have hstop := h.stop_lt c hmem
  have hlt := h.separate.proper c.toSplice (List.mem_map_of_mem hmem)
  obtain hzero | hpos := Nat.eq_zero_or_pos c.start
  · simp [hzero, replaceAll]
  · have hindex : c.start - 1 < text.length := by omega
    obtain ⟨n, new, hnew⟩ := List.exists_cons_of_ne_nil (h.nonempty c hmem)
    obtain ⟨a, ha⟩ := replaceAll_take_last hc.separate.tail
      (fun f hf => hc.apart List.mem_cons_self f (List.mem_cons_of_mem _ hf)) hlt hpos hindex
    obtain ⟨b, hb⟩ := replaceAll_take_last h.separate (h.apart hmem) hlt hpos hindex
    have hkept := replaceAll_around_kept hc.separate (Nat.le_of_lt hstop)
    have haround := replaceAll_around h.separate (List.mem_map_of_mem hmem) (Nat.le_of_lt hstop)
    rw [ha, List.append_assoc, List.singleton_append] at hkept
    rw [hb, hnew, List.append_assoc, List.singleton_append, List.cons_append] at haround
    have hleft : [text[c.start - 1], n].Sublist (cutAll (pre ++ c :: post) text) := by
      rw [hall, replaceCuts, haround]
      simp
    have hsub := h.sublist_apply (by simp [hnew]) hleft
    have hrest : (cutAll post text).Nodup := hc.tail.cutAll_nodup
    have hcut : (c.apply (cutAll post text)).Nodup := hc.cutAll_nodup
    rw [hpost, replaceCuts, hkept] at hsub hrest hcut
    rw [ha, List.length_append, List.length_singleton]
    exact Cut.lt_first hnew hrest hcut hsub

/-- A cut stops no later than its piece. -/
theorem Marked.last_le_length {pre post : List (Cut α)} {c : Cut α} {text : List α}
    (h : Marked (pre ++ c :: post) text)
    (hall : cutAll (pre ++ c :: post) text = replaceCuts (pre ++ c :: post) text)
    (hpost : cutAll post text = replaceCuts post text) :
    c.last ≤ (replaceAll (post.map Cut.toSplice) 0 (text.take c.start)).length +
      (c.stop - c.start) := by
  have hmem : c ∈ pre ++ c :: post := List.mem_append_right pre List.mem_cons_self
  have hc : Marked (c :: post) text := h.append_right
  have hstop := h.stop_lt c hmem
  have hlt := h.separate.proper c.toSplice (List.mem_map_of_mem hmem)
  obtain ⟨new, n, hnew⟩ : ∃ new n, c.new = new ++ [n] :=
    ⟨_, _, (List.dropLast_concat_getLast (h.nonempty c hmem)).symm⟩
  obtain ⟨a, ha⟩ := replaceAll_drop_first hc.separate.tail
    (fun f hf => hc.apart List.mem_cons_self f (List.mem_cons_of_mem _ hf)) hlt hstop
  obtain ⟨b, hb⟩ := replaceAll_drop_first h.separate (h.apart hmem) hlt hstop
  have hkept := replaceAll_around_kept hc.separate (Nat.le_of_lt hstop)
  have haround := replaceAll_around h.separate (List.mem_map_of_mem hmem) (Nat.le_of_lt hstop)
  rw [ha, ← List.append_assoc] at hkept
  rw [hb, hnew, List.append_assoc, List.singleton_append] at haround
  have hright : [n, text[c.stop]].Sublist (cutAll (pre ++ c :: post) text) := by
    rw [hall, replaceCuts, haround]
    simp
  have hsub := h.sublist_apply (by simp [hnew]) hright
  have hrest : (cutAll post text).Nodup := hc.tail.cutAll_nodup
  have hcut : (c.apply (cutAll post text)).Nodup := hc.cutAll_nodup
  rw [hpost, replaceCuts, hkept] at hsub hrest hcut
  have hlast := Cut.last_le hnew hrest hcut hsub
  rw [List.length_append, List.length_take, List.length_drop] at hlast
  omega

/-- Cuts that replace the pieces all at once are in their places. -/
theorem Marked.inPlace {cs : List (Cut α)} {text : List α} (h : Marked cs text)
    (hall : cutAll cs text = replaceCuts cs text) : InPlace cs := by
  suffices hpost : ∀ post pre, cs = pre ++ post → InPlace post from hpost cs [] rfl
  intro post
  induction post with
  | nil => exact fun _ _ => trivial
  | cons c post ih =>
    rintro pre rfl
    have hmem : c ∈ pre ++ c :: post := List.mem_append_right pre List.mem_cons_self
    have hrest : InPlace post := ih (pre ++ [c]) (by simp)
    have hc : Marked (c :: post) text := h.append_right
    have hpost : cutAll post text = replaceCuts post text :=
      cutAll_eq_replaceCuts hc.separate.tail (fun d hd => Nat.le_of_lt (hc.tail.stop_lt d hd)) hrest
    have hfirst := h.length_le_first hall hpost
    have hlast := h.last_le_length hall hpost
    have hlength := length_replaceAll_take hc.separate (Nat.le_of_lt (h.stop_lt c hmem))
    have hlt := hc.separate.proper c.toSplice List.mem_cons_self
    have hordered := h.ordered c hmem
    have hcovers := h.covers c hmem
    exact ⟨⟨by omega, by omega⟩, hrest⟩

/-- Cuts replace the pieces all at once exactly if every piece is looked for where the cuts made
before have moved it. -/
theorem Marked.cutAll_eq_iff {cs : List (Cut α)} {text : List α} (h : Marked cs text) :
    cutAll cs text = replaceCuts cs text ↔ InPlace cs :=
  ⟨h.inPlace, cutAll_eq_replaceCuts h.separate fun c hc => Nat.le_of_lt (h.stop_lt c hc)⟩

end SqlLayout.Host
