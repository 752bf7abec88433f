import Mathlib.Data.List.Infix
import SqlLayout.Placeholder

/-!
The markers of named parameters. Colons come back as the markers they stand for, piece by piece of a
text, as long as no marker reaches over the end of a piece.
-/

namespace SqlLayout.Text

/-- No occurrence of a text reaches over the place between two others. -/
def Parted (old a b : List Char) : Prop :=
  ∀ u v, u ≠ [] → v ≠ [] → old = u ++ v → u <:+ a → ¬ v <+: b

theorem isPrefixOf_append {old a b : List Char} (h : Parted old a b) (ha : a ≠ []) :
    old.isPrefixOf (a ++ b) = old.isPrefixOf a := by
  rw [Bool.eq_iff_iff, List.isPrefixOf_iff_prefix, List.isPrefixOf_iff_prefix]
  constructor
  · intro hprefix
    obtain hinside | ⟨t, ht⟩ := List.prefix_or_prefix_of_prefix hprefix (List.prefix_append a b)
    · exact hinside
    · by_cases hnil : t = []
      · rw [hnil, List.append_nil] at ht
        rw [ht]
      · rw [← ht, List.prefix_append_right_inj] at hprefix
        exact absurd hprefix (h a t ha hnil ht.symm (List.suffix_refl a))
  · intro hprefix
    exact hprefix.trans (List.prefix_append a b)

/-- Both sides of such a place are replaced on their own. -/
theorem replaceFrom_append {old new : List Char} (a : List Char) {b : List Char}
    (h : Parted old a b) (k : Nat) (hk : k ≤ a.length) :
    replaceFrom old new k (a ++ b) = replaceFrom old new k a ++ replaceFrom old new 0 b := by
  induction a generalizing k with
  | nil =>
    cases Nat.le_zero.1 hk
    rfl
  | cons c r ih =>
    have hr : Parted old r b := fun u v hu hv huv hsuffix =>
      h u v hu hv huv (hsuffix.trans (List.suffix_cons c r))
    cases k with
    | succ k =>
      rw [List.cons_append, replaceFrom, replaceFrom]
      exact ih hr k (Nat.le_of_succ_le_succ hk)
    | zero =>
      have hprefix := isPrefixOf_append h (List.cons_ne_nil c r)
      rw [List.cons_append] at hprefix ⊢
      rw [replaceFrom, replaceFrom, hprefix]
      split
      · rename_i hinside
        have hlength := (List.isPrefixOf_iff_prefix.1 hinside).length_le
        rw [List.length_cons] at hlength
        rw [List.append_assoc, ih hr _ (by omega)]
      · rw [List.cons_append, ih hr 0 (Nat.zero_le _)]

theorem parted_of_head {old a b : List Char} (h : ∀ c ∈ b.head?, c ∉ old.tail) : Parted old a b := by
  rintro u v hu hv rfl - ⟨t, rfl⟩
  cases v with
  | nil => exact hv rfl
  | cons c v =>
    cases u with
    | nil => exact hu rfl
    | cons d u => exact h c rfl (by simp)

theorem parted_of_last {old a b : List Char} (h : ∀ c ∈ a.getLast?, c ∉ old.dropLast) :
    Parted old a b := by
  rintro u v hu hv rfl ⟨t, rfl⟩ -
  obtain ⟨c, r, rfl⟩ := List.exists_cons_of_ne_nil hv
  have hlast : (t ++ u).getLast? = some (u.getLast hu) := by
    rw [List.getLast?_append_of_ne_nil _ hu, List.getLast?_eq_getLast_of_ne_nil hu]
  refine h _ hlast ?_
  rw [List.dropLast_append_of_ne_nil (List.cons_ne_nil c r)]
  exact List.mem_append_left _ (List.getLast_mem hu)

theorem mem_replaceFrom {old new cs : List Char} {k : Nat} {c : Char}
    (h : c ∈ replaceFrom old new k cs) : c ∈ cs ∨ c ∈ new := by
  induction cs generalizing k with
  | nil => cases h
  | cons d r ih =>
    cases k with
    | succ k => exact (ih h).imp_left (List.mem_cons_of_mem d)
    | zero =>
      rw [replaceFrom] at h
      split at h
      · obtain hnew | hrest := List.mem_append.1 h
        · exact .inr hnew
        · exact (ih hrest).imp_left (List.mem_cons_of_mem d)
      · obtain rfl | hrest := List.mem_cons.1 h
        · exact .inl List.mem_cons_self
        · exact (ih hrest).imp_left (List.mem_cons_of_mem d)

/-- A text without occurrences stays as it is. -/
theorem replaceFrom_of_not_infix {old new cs : List Char} (h : ¬ old <:+: cs) :
    replaceFrom old new 0 cs = cs := by
  induction cs with
  | nil => rfl
  | cons c r ih =>
    have hprefix : old.isPrefixOf (c :: r) = false := by
      rw [Bool.eq_false_iff, Ne, List.isPrefixOf_iff_prefix]
      exact fun hp => h hp.isInfix
    rw [replaceFrom, hprefix, ih fun hr => h (hr.trans (List.suffix_cons c r).isInfix)]
    rfl

/-- A text with an occurrence has the characters of the new text in the end. -/
theorem subset_replaceFrom {old new cs : List Char} (h : old <:+: cs) (hold : old ≠ []) :
    new ⊆ replaceFrom old new 0 cs := by
  induction cs with
  | nil => exact absurd (List.infix_nil.1 h) hold
  | cons c r ih =>
    rw [replaceFrom]
    split
    · exact List.subset_append_left _ _
    · rename_i hprefix
      rw [List.isPrefixOf_iff_prefix] at hprefix
      obtain hp | hr := List.infix_cons_iff.1 h
      · exact absurd hp hprefix
      · exact List.subset_cons_of_subset c (ih hr)

end SqlLayout.Text

namespace SqlLayout.Placeholder

open Text (replaceFrom)

/-- The three steps of `normalize` on characters. -/
def castless (cs : List Char) : List Char :=
  replaceFrom "::".toList castMarker.toList 0 cs

def colonless (cs : List Char) : List Char :=
  replaceFrom ":".toList paramMarker.toList 0 cs

def recast (cs : List Char) : List Char :=
  replaceFrom castMarker.toList "::".toList 0 cs

def restored (cs : List Char) : List Char :=
  replaceFrom paramMarker.toList ":".toList 0 cs

theorem normalize_toList (text : String) :
    (normalize text).toList = recast (colonless (castless text.toList)) := by
  simp [normalize, Text.replaceAll, recast, colonless, castless]

theorem restore_toList (text : String) : (restore text).toList = restored text.toList := by
  simp [restore, Text.replaceAll, restored]

/-- A text that comes back once its markers have become colons. -/
def Survives (cs : List Char) : Prop :=
  recast (colonless (castless (restored cs))) = cs

instance (cs : List Char) : Decidable (Survives cs) :=
  inferInstanceAs (Decidable (_ = _))

/-- A character that is in no marker and is no colon. -/
def isInert (c : Char) : Bool :=
  !(':' :: castMarker.toList ++ paramMarker.toList).contains c

theorem replaceFrom_cons_ne {old new : List Char} {c d : Char} {r s : List Char} (hold : old = d :: s)
    (h : c ≠ d) : replaceFrom old new 0 (c :: r) = c :: replaceFrom old new 0 r := by
  have hprefix : old.isPrefixOf (c :: r) = false := by
    rw [hold, List.isPrefixOf_cons_cons, beq_eq_false_iff_ne.2 h.symm, Bool.false_and]
  rw [replaceFrom, hprefix]
  rfl

theorem ne_of_isInert {c d : Char} (hc : isInert c = true)
    (hd : d ∈ ':' :: castMarker.toList ++ paramMarker.toList) : c ≠ d := by
  rintro rfl
  simp only [isInert, Bool.not_eq_true', List.contains_eq_mem, decide_eq_false_iff_not] at hc
  exact hc hd

theorem restored_cons {c : Char} (hc : c ≠ 't') (r : List Char) : restored (c :: r) = c :: restored r :=
  replaceFrom_cons_ne rfl hc

theorem castless_cons {c : Char} (hc : c ≠ ':') (r : List Char) : castless (c :: r) = c :: castless r :=
  replaceFrom_cons_ne rfl hc

theorem colonless_cons {c : Char} (hc : c ≠ ':') (r : List Char) :
    colonless (c :: r) = c :: colonless r :=
  replaceFrom_cons_ne rfl hc

theorem recast_cons {c : Char} (hc : c ≠ 'c') (r : List Char) : recast (c :: r) = c :: recast r :=
  replaceFrom_cons_ne rfl hc

theorem castless_colons (r : List Char) :
    castless (':' :: ':' :: r) = castMarker.toList ++ castless r :=
  rfl

theorem colonless_castMarker (r : List Char) :
    colonless (castMarker.toList ++ r) = castMarker.toList ++ colonless r :=
  Text.replaceFrom_append castMarker.toList (Text.parted_of_head (by simp)) 0 (Nat.zero_le _)

theorem recast_castMarker (r : List Char) : recast (castMarker.toList ++ r) = ':' :: ':' :: recast r :=
  rfl

theorem Survives.cons {c : Char} {cs : List Char} (hc : isInert c = true) (h : Survives cs) :
    Survives (c :: cs) := by
  have ht : c ≠ 't' := ne_of_isInert hc (by decide)
  have hcolon : c ≠ ':' := ne_of_isInert hc (by decide)
  have hcast : c ≠ 'c' := ne_of_isInert hc (by decide)
  rw [Survives, restored_cons ht, castless_cons hcolon, colonless_cons hcolon, recast_cons hcast, h]

theorem Survives.colons {cs : List Char} (h : Survives cs) : Survives (':' :: ':' :: cs) := by
  rw [Survives, restored_cons (by decide), restored_cons (by decide), castless_colons,
    colonless_castMarker, recast_castMarker, h]

/-- What may follow a text of the tree: nothing, a character in no marker, or the colons of a cast. -/
inductive Bounded : List Char → Prop
  | nil : Bounded []
  | inert {c : Char} (r : List Char) (h : isInert c = true) : Bounded (c :: r)
  | colons (r : List Char) : Bounded (':' :: ':' :: r)

theorem Survives.append {w cs : List Char} (hw : Survives w) (hlast : (restored w).getLast? ≠ some ':')
    (hcs : Bounded cs) (h : Survives cs) : Survives (w ++ cs) := by
  have hhead : ∀ c ∈ cs.head?, c ∉ paramMarker.toList.tail := by
    cases hcs with
    | nil => simp
    | inert r hc =>
      rintro c ⟨⟩ hmem
      refine ne_of_isInert hc ?_ rfl
      exact List.mem_append_right _ (List.mem_of_mem_tail hmem)
    | colons r =>
      rintro c ⟨⟩
      decide
  have hrestored : restored (w ++ cs) = restored w ++ restored cs :=
    Text.replaceFrom_append w (Text.parted_of_head hhead) 0 (Nat.zero_le _)
  have hcastless : castless (restored w ++ restored cs) =
      castless (restored w) ++ castless (restored cs) := by
    refine Text.replaceFrom_append _ (Text.parted_of_last ?_) 0 (Nat.zero_le _)
    intro c hc hmem
    have : c = ':' := by simpa using hmem
    exact hlast (this ▸ hc)
  have hcolonless (a b : List Char) : colonless (a ++ b) = colonless a ++ colonless b :=
    Text.replaceFrom_append a (Text.parted_of_head (by simp)) 0 (Nat.zero_le _)
  have hrecast : recast (colonless (castless (restored w)) ++ colonless (castless (restored cs))) =
      recast (colonless (castless (restored w))) ++ recast (colonless (castless (restored cs))) := by
    refine Text.replaceFrom_append _ (Text.parted_of_head ?_) 0 (Nat.zero_le _)
    cases hcs with
    | nil => exact fun c hc => by cases hc
    | inert r hc =>
      rename_i d
      have ht : d ≠ 't' := ne_of_isInert hc (by decide)
      have hcolon : d ≠ ':' := ne_of_isInert hc (by decide)
      rw [restored_cons ht, castless_cons hcolon, colonless_cons hcolon]
      rintro c ⟨⟩ hmem
      refine ne_of_isInert hc ?_ rfl
      exact List.mem_append_left _ (List.mem_cons_of_mem _ (List.mem_of_mem_tail hmem))
    | colons r =>
      rw [restored_cons (by decide), restored_cons (by decide), castless_colons, colonless_castMarker]
      rintro c ⟨⟩
      decide
  rw [Survives, hrestored, hcastless, hcolonless, hrecast, hw, h]

end SqlLayout.Placeholder
