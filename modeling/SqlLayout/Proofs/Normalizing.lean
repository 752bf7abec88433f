import Mathlib.Algebra.Group.Nat.Even
import SqlLayout.Format
import SqlLayout.Proofs.Markers

/-!
What `normalize` does to a text, read from left to right: pairs of colons stay, single colons become
markers of parameters, and markers of casts become pairs of colons. No marker comes to be from pieces
of others, so `restore` takes back what was done to colons and nothing else.
-/

namespace SqlLayout.Text

/-- No end of the text agrees with `new` as far as both go. -/
def Clashes (w new : List Char) : Prop :=
  ∀ v ∈ w.tails, v ≠ [] → ¬ v <+: new ∧ ¬ new <+: v

instance (w new : List Char) : Decidable (Clashes w new) :=
  inferInstanceAs (Decidable (∀ v ∈ w.tails, _))

theorem Clashes.tail {c : Char} {w new : List Char} (h : Clashes (c :: w) new) : Clashes w new :=
  fun v hv => h v (by rw [List.tails_cons]; exact List.mem_cons_of_mem _ hv)

/-- A text that clashes with the new one stands in front of the result only if it stood there before. -/
theorem prefix_of_prefix_replaceFrom {old new w r : List Char} (hw : Clashes w new)
    (h : w <+: replaceFrom old new 0 r) : w <+: r := by
  induction w generalizing r with
  | nil => exact List.nil_prefix
  | cons c w ih =>
    cases r with
    | nil => exact h
    | cons d r =>
      rw [replaceFrom] at h
      split at h
      · obtain ⟨hw', hnew⟩ := hw (c :: w) (by simp) (List.cons_ne_nil c w)
        obtain hp | hp := List.prefix_or_prefix_of_prefix h (List.prefix_append new _)
        · exact absurd hp hw'
        · exact absurd hp hnew
      · obtain ⟨rfl, hr⟩ := List.cons_prefix_cons.1 h
        exact List.cons_prefix_cons.2 ⟨rfl, ih hw.tail hr⟩

/-- What was replaced by other characters is gone: an occurrence in the result would have been found
before, since it can have none of the new characters. -/
theorem not_infix_replaceFrom {old new : List Char} (hold : old ≠ []) (hnew : new ≠ [])
    (hother : ∀ c ∈ new, c ∉ old) (k : Nat) (cs : List Char) : ¬ old <:+: replaceFrom old new k cs := by
  have hclash : Clashes old new := by
    intro v hv hne
    have hsuffix : v <:+ old := List.mem_tails v old |>.1 hv
    obtain ⟨c, v, rfl⟩ := List.exists_cons_of_ne_nil hne
    obtain ⟨d, new, rfl⟩ := List.exists_cons_of_ne_nil hnew
    have hc : c ∈ old := hsuffix.subset List.mem_cons_self
    have hne : d ≠ c := fun h => hother d List.mem_cons_self (h ▸ hc)
    exact ⟨fun h => hne (List.cons_prefix_cons.1 h).1.symm, fun h => hne (List.cons_prefix_cons.1 h).1⟩
  have hbehind {r : List Char} (h : ¬ old <:+: r) : ¬ old <:+: new ++ r := by
    clear hclash hnew
    induction new with
    | nil => exact h
    | cons d new ih =>
      intro hinfix
      obtain hprefix | hinfix := List.infix_cons_iff.1 hinfix
      · obtain ⟨c, old, rfl⟩ := List.exists_cons_of_ne_nil hold
        obtain ⟨rfl, -⟩ := List.cons_prefix_cons.1 hprefix
        exact hother c List.mem_cons_self List.mem_cons_self
      · exact ih (fun c hc => hother c (List.mem_cons_of_mem d hc)) hinfix
  induction cs generalizing k with
  | nil =>
    rw [replaceFrom, List.infix_nil]
    exact hold
  | cons c r ih =>
    cases k with
    | succ k => exact ih k
    | zero =>
      rw [replaceFrom]
      split
      · exact hbehind (ih _)
      · rename_i hprefix
        intro hinfix
        obtain h | h := List.infix_cons_iff.1 hinfix
        · rw [List.isPrefixOf_iff_prefix] at hprefix
          obtain ⟨d, old, rfl⟩ := List.exists_cons_of_ne_nil hold
          obtain ⟨rfl, hrest⟩ := List.cons_prefix_cons.1 h
          have hr : old <+: r := prefix_of_prefix_replaceFrom hclash.tail hrest
          exact hprefix (List.cons_prefix_cons.2 ⟨rfl, hr⟩)
        · exact ih 0 h

theorem length_replaceFrom_le {old new : List Char} (h : new.length ≤ old.length) (k : Nat)
    (cs : List Char) : (replaceFrom old new k cs).length ≤ cs.length - k := by
  induction cs generalizing k with
  | nil => exact Nat.zero_le _
  | cons c r ih =>
    cases k with
    | succ k =>
      have := ih k
      rw [replaceFrom, List.length_cons]
      omega
    | zero =>
      rw [replaceFrom]
      split
      · rename_i hprefix
        have hlength := (List.isPrefixOf_iff_prefix.1 hprefix).length_le
        have := ih (old.length - 1)
        rw [List.length_cons] at hlength
        rw [List.length_append, List.length_cons]
        omega
      · have := ih 0
        rw [List.length_cons, List.length_cons]
        omega

/-- A text becomes shorter if something in it becomes shorter. -/
theorem length_replaceFrom_lt {old new cs : List Char} (h : new.length < old.length)
    (hcs : old <:+: cs) : (replaceFrom old new 0 cs).length < cs.length := by
  induction cs with
  | nil =>
    rw [List.infix_nil] at hcs
    rw [hcs] at h
    cases h
  | cons c r ih =>
    rw [replaceFrom]
    split
    · rename_i hprefix
      have hlength := (List.isPrefixOf_iff_prefix.1 hprefix).length_le
      have := length_replaceFrom_le (Nat.le_of_lt h) (old.length - 1) r
      rw [List.length_cons] at hlength
      rw [List.length_append, List.length_cons]
      omega
    · rename_i hprefix
      rw [List.isPrefixOf_iff_prefix] at hprefix
      have := ih ((List.infix_cons_iff.1 hcs).resolve_left hprefix)
      rw [List.length_cons, List.length_cons]
      omega

end SqlLayout.Text

namespace SqlLayout.Placeholder

open Text (Clashes replaceFrom prefix_of_prefix_replaceFrom)

variable {c : Char} {r : List Char}

/-- The text after `normalize`. -/
def normalized (cs : List Char) : List Char :=
  recast (colonless (castless cs))

/-! ### What stands in front -/

theorem castMarker_length : castMarker.toList.length = 8 := rfl

theorem paramMarker_length : paramMarker.toList.length = 6 := rfl

/-- A text is read by what stands in front of it: two colons, one colon, a marker, or another
character. -/
@[elab_as_elim]
theorem markInduction {motive : List Char → Prop} (nil : motive [])
    (colons : ∀ r, motive r → motive (':' :: ':' :: r))
    (colon : ∀ r, r.head? ≠ some ':' → motive r → motive (':' :: r))
    (cast : ∀ r, motive r → motive (castMarker.toList ++ r))
    (param : ∀ r, motive r → motive (paramMarker.toList ++ r))
    (other : ∀ c r, c ≠ ':' → ¬ castMarker.toList <+: c :: r → ¬ paramMarker.toList <+: c :: r →
      motive r → motive (c :: r))
    (cs : List Char) : motive cs := by
  induction h : cs.length using Nat.strong_induction_on generalizing cs with
  | _ n ih =>
    have shorter (r : List Char) (hr : r.length < cs.length) : motive r := ih r.length (h ▸ hr) r rfl
    match cs with
    | [] => exact nil
    | c :: r =>
      by_cases hcolon : c = ':'
      · subst hcolon
        match r with
        | [] => exact colon [] (by simp) nil
        | d :: s =>
          by_cases hd : d = ':'
          · subst hd
            exact colons s (shorter s (by simp only [List.length_cons]; omega))
          · exact colon (d :: s) (by simpa using hd) (shorter _ (by simp))
      · by_cases hcast : castMarker.toList <+: c :: r
        · obtain ⟨s, hs⟩ := hcast
          rw [← hs] at shorter ⊢
          exact cast s (shorter s (by simp only [castMarker_length, List.length_append]; omega))
        · by_cases hparam : paramMarker.toList <+: c :: r
          · obtain ⟨s, hs⟩ := hparam
            rw [← hs] at shorter ⊢
            exact param s (shorter s (by simp only [paramMarker_length, List.length_append]; omega))
          · exact other c r hcolon hcast hparam (shorter r (by simp))

/-- A text that stays as it is and with whose last character no occurrence goes on is passed over. -/
theorem replaceFrom_block {old new w : List Char} (r : List Char)
    (hlast : ∀ c ∈ w.getLast?.toList, c ∉ old.dropLast) (hw : replaceFrom old new 0 w = w) :
    replaceFrom old new 0 (w ++ r) = w ++ replaceFrom old new 0 r := by
  have hparted : Text.Parted old w r := Text.parted_of_last fun c hc => hlast c (Option.mem_toList.2 hc)
  rw [Text.replaceFrom_append w hparted 0 (Nat.zero_le _), hw]

theorem castless_colon (h : r.head? ≠ some ':') : castless (':' :: r) = ':' :: castless r := by
  have hprefix : ¬ "::".toList <+: ':' :: r := by
    rintro ⟨s, hs⟩
    cases hs
    exact h rfl
  rw [castless, replaceFrom, if_neg (by rwa [List.isPrefixOf_iff_prefix])]
  rfl

theorem recast_paramMarker (r : List Char) :
    recast (paramMarker.toList ++ r) = paramMarker.toList ++ recast r :=
  replaceFrom_block r (by decide) (by decide)

theorem recast_cons_of_not_prefix (h : ¬ castMarker.toList <+: c :: r) :
    recast (c :: r) = c :: recast r := by
  rw [recast, replaceFrom, if_neg (by rwa [List.isPrefixOf_iff_prefix])]
  rfl

theorem restored_paramMarker (r : List Char) : restored (paramMarker.toList ++ r) = ':' :: restored r :=
  rfl

theorem restored_cons_of_not_prefix (h : ¬ paramMarker.toList <+: c :: r) :
    restored (c :: r) = c :: restored r := by
  rw [restored, replaceFrom, if_neg (by rwa [List.isPrefixOf_iff_prefix])]
  rfl

/-! ### `normalize`, piece by piece -/

@[simp]
theorem normalized_colons (r : List Char) : normalized (':' :: ':' :: r) = ':' :: ':' :: normalized r := by
  rw [normalized, castless_colons, colonless_castMarker, recast_castMarker, normalized]

theorem normalized_colon (h : r.head? ≠ some ':') :
    normalized (':' :: r) = paramMarker.toList ++ normalized r := by
  have hcolonless (s : List Char) : colonless (':' :: s) = paramMarker.toList ++ colonless s := rfl
  rw [normalized, castless_colon h, hcolonless, recast_paramMarker, normalized]

@[simp]
theorem normalized_cast (r : List Char) :
    normalized (castMarker.toList ++ r) = ':' :: ':' :: normalized r := by
  have hcastless : castless (castMarker.toList ++ r) = castMarker.toList ++ castless r :=
    replaceFrom_block r (by decide) (by decide)
  rw [normalized, hcastless, colonless_castMarker, recast_castMarker, normalized]

@[simp]
theorem normalized_param (r : List Char) :
    normalized (paramMarker.toList ++ r) = paramMarker.toList ++ normalized r := by
  have hcastless : castless (paramMarker.toList ++ r) = paramMarker.toList ++ castless r :=
    replaceFrom_block r (by decide) (by decide)
  have hcolonless : colonless (paramMarker.toList ++ castless r) =
      paramMarker.toList ++ colonless (castless r) :=
    replaceFrom_block (castless r) (by decide) (by decide)
  rw [normalized, hcastless, hcolonless, recast_paramMarker, normalized]

theorem normalized_cons (hc : c ≠ ':') (hcast : ¬ castMarker.toList <+: c :: r) :
    normalized (c :: r) = c :: normalized r := by
  rw [normalized, castless_cons hc, colonless_cons hc, recast_cons_of_not_prefix, normalized]
  -- The rest of a marker does not come to be from colons.
  intro h
  obtain ⟨rfl, hrest⟩ := List.cons_prefix_cons.1 h
  have hcastless : castMarker.toList.tail <+: castless r :=
    prefix_of_prefix_replaceFrom (by decide) hrest
  have hr : castMarker.toList.tail <+: r := prefix_of_prefix_replaceFrom (by decide) hcastless
  exact hcast (List.cons_prefix_cons.2 ⟨rfl, hr⟩)

/-- A marker of a parameter does not come to be behind a character that is no colon. -/
theorem not_prefix_normalized (h : ¬ paramMarker.toList <+: c :: r) :
    ¬ paramMarker.toList <+: c :: normalized r := by
  intro hprefix
  obtain ⟨rfl, hrest⟩ := List.cons_prefix_cons.1 hprefix
  have hcolonless : paramMarker.toList.tail <+: colonless (castless r) :=
    prefix_of_prefix_replaceFrom (by decide) hrest
  have hcastless : paramMarker.toList.tail <+: castless r :=
    prefix_of_prefix_replaceFrom (by decide) hcolonless
  have hr : paramMarker.toList.tail <+: r := prefix_of_prefix_replaceFrom (by decide) hcastless
  exact h (List.cons_prefix_cons.2 ⟨rfl, hr⟩)

theorem not_prefix_recast (h : ¬ paramMarker.toList <+: c :: r) :
    ¬ paramMarker.toList <+: c :: recast r := by
  intro hprefix
  obtain ⟨rfl, hrest⟩ := List.cons_prefix_cons.1 hprefix
  have hr : paramMarker.toList.tail <+: r := prefix_of_prefix_replaceFrom (by decide) hrest
  exact h (List.cons_prefix_cons.2 ⟨rfl, hr⟩)

/-! ### There and back -/

theorem restored_normalized (cs : List Char) : restored (normalized cs) = restored (recast cs) := by
  induction cs using markInduction with
  | nil => rfl
  | colons r ih =>
    rw [normalized_colons, recast_cons (by decide), recast_cons (by decide),
      restored_cons (by decide), restored_cons (by decide), restored_cons (by decide),
      restored_cons (by decide), ih]
  | colon r hr ih =>
    rw [normalized_colon hr, recast_cons (by decide), restored_paramMarker,
      restored_cons (by decide), ih]
  | cast r ih =>
    rw [normalized_cast, recast_castMarker, restored_cons (by decide), restored_cons (by decide),
      restored_cons (by decide), restored_cons (by decide), ih]
  | param r ih =>
    rw [normalized_param, recast_paramMarker, restored_paramMarker, restored_paramMarker, ih]
  | other c r hc hcast hparam ih =>
    rw [normalized_cons hc hcast, recast_cons_of_not_prefix hcast,
      restored_cons_of_not_prefix (not_prefix_normalized hparam),
      restored_cons_of_not_prefix (not_prefix_recast hparam), ih]

/-- A text with a marker becomes shorter, one without stays. -/
theorem restored_recast_eq_iff (cs : List Char) :
    restored (recast cs) = cs ↔ ¬ castMarker.toList <:+: cs ∧ ¬ paramMarker.toList <:+: cs := by
  constructor
  · intro h
    have hlength : (restored (recast cs)).length = cs.length := congrArg List.length h
    have hrecast : (recast cs).length ≤ cs.length :=
      Text.length_replaceFrom_le (by decide) 0 cs
    have hrestored : (restored (recast cs)).length ≤ (recast cs).length :=
      Text.length_replaceFrom_le (by decide) 0 (recast cs)
    have hcast : ¬ castMarker.toList <:+: cs := by
      intro hinfix
      have : (recast cs).length < cs.length := Text.length_replaceFrom_lt (by decide) hinfix
      omega
    have hsame : recast cs = cs := Text.replaceFrom_of_not_infix hcast
    refine ⟨hcast, fun hinfix => ?_⟩
    have : (restored cs).length < cs.length := Text.length_replaceFrom_lt (by decide) hinfix
    rw [hsame] at hlength
    omega
  · rintro ⟨hcast, hparam⟩
    rw [recast, Text.replaceFrom_of_not_infix hcast, restored, Text.replaceFrom_of_not_infix hparam]

/-- Of a text that is normalized and restored the markers in it have become colons, and nothing else
has changed. -/
theorem restore_normalize (text : String) :
    restore (normalize text) =
      Text.replaceAll paramMarker ":" (Text.replaceAll castMarker "::" text) ∧
    (restore (normalize text) = text ↔
      ¬ castMarker.toList <:+: text.toList ∧ ¬ paramMarker.toList <:+: text.toList) := by
  have hrestored : (restore (normalize text)).toList = restored (recast text.toList) := by
    rw [restore_toList, normalize_toList]
    exact restored_normalized text.toList
  constructor
  · rw [← String.toList_inj, hrestored]
    simp [Text.replaceAll, restored, recast]
  · rw [← restored_recast_eq_iff, ← hrestored, String.toList_inj]

example : restore (normalize "'12:30' :::a::b castpre ttpre") = "'12:30' :::a::b castpre ttpre" := by
  decide

/-! ### Normal forms -/

/-- A text whose colons stand in pairs. -/
inductive Paired : List Char → Prop
  | nil : Paired []
  | colons {r : List Char} (h : Paired r) : Paired (':' :: ':' :: r)
  | other {c : Char} {r : List Char} (hc : c ≠ ':') (h : Paired r) : Paired (c :: r)

theorem Paired.append {w r : List Char} (hw : ':' ∉ w) (h : Paired r) : Paired (w ++ r) := by
  induction w with
  | nil => exact h
  | cons c w ih =>
    rw [List.mem_cons, not_or] at hw
    exact .other (Ne.symm hw.1) (ih hw.2)

/-- Every longest run of colons has an even length. -/
def EvenRuns (cs : List Char) : Prop :=
  ∀ before n after, cs = before ++ List.replicate n ':' ++ after →
    before.getLast? ≠ some ':' → after.head? ≠ some ':' → Even n

/-- By induction on the pairs: a run starts in front of a pair or behind it. -/
theorem Paired.evenRuns {cs : List Char} (h : Paired cs) : EvenRuns cs := by
  induction h with
  | nil =>
    intro before n after hcs _ _
    simp only [List.append_assoc, List.nil_eq, List.append_eq_nil_iff, List.replicate_eq_nil_iff] at hcs
    rw [hcs.2.1]
    exact Even.zero
  | @colons r _ ih =>
    intro before n after hcs hbefore hafter
    match before with
    | [] =>
      match n with
      | 0 => exact Even.zero
      | 1 =>
        have hcolon : ':' :: r = after := by simpa [List.replicate_succ] using hcs
        exact absurd (by rw [← hcolon]; rfl) hafter
      | n + 2 =>
        have hr : r = [] ++ List.replicate n ':' ++ after := by
          simpa [List.replicate_succ] using hcs
        exact (ih [] n after hr hbefore hafter).add (by decide)
    | [d] =>
      have hcolon : ':' = d := (List.cons.inj hcs).1
      exact absurd (by rw [← hcolon]; rfl) hbefore
    | d :: e :: before =>
      simp only [List.cons_append, List.cons.injEq] at hcs
      obtain ⟨rfl, rfl, hr⟩ := hcs
      refine ih before n after hr ?_ hafter
      cases before with
      | nil => exact absurd rfl hbefore
      | cons f before => simpa [List.getLast?_cons] using hbefore
  | @other c r hc _ ih =>
    intro before n after hcs hbefore hafter
    match before with
    | [] =>
      match n with
      | 0 => exact Even.zero
      | n + 1 =>
        rw [List.replicate_succ] at hcs
        exact absurd (List.cons.inj hcs).1 hc
    | d :: before =>
      simp only [List.cons_append, List.cons.injEq] at hcs
      obtain ⟨rfl, hr⟩ := hcs
      refine ih before n after hr ?_ hafter
      cases before with
      | nil => simp
      | cons f before => simpa [List.getLast?_cons] using hbefore

theorem normalized_paired (cs : List Char) : Paired (normalized cs) := by
  induction cs using markInduction with
  | nil => exact .nil
  | colons r ih =>
    rw [normalized_colons]
    exact .colons ih
  | colon r hr ih =>
    rw [normalized_colon hr]
    exact .append (by decide) ih
  | cast r ih =>
    rw [normalized_cast]
    exact .colons ih
  | param r ih =>
    rw [normalized_param]
    exact .append (by decide) ih
  | other c r hc hcast _ ih =>
    rw [normalized_cons hc hcast]
    exact .other hc ih

theorem normalized_castless (cs : List Char) : ¬ castMarker.toList <:+: normalized cs :=
  Text.not_infix_replaceFrom (by decide) (by decide) (by decide) 0 _

theorem restored_paramless (cs : List Char) : ¬ paramMarker.toList <:+: restored cs :=
  Text.not_infix_replaceFrom (by decide) (by decide) (by decide) 0 cs

theorem normalized_normalized (cs : List Char) : normalized (normalized cs) = normalized cs := by
  induction cs using markInduction with
  | nil => rfl
  | colons r ih => rw [normalized_colons, normalized_colons, ih]
  | colon r hr ih => rw [normalized_colon hr, normalized_param, ih]
  | cast r ih => rw [normalized_cast, normalized_colons, ih]
  | param r ih => rw [normalized_param, normalized_param, ih]
  | other c r hc hcast _ ih =>
    have hgone := normalized_castless (c :: r)
    rw [normalized_cons hc hcast] at hgone ⊢
    rw [normalized_cons hc fun h => hgone h.isInfix, ih]

theorem restored_restored (cs : List Char) : restored (restored cs) = restored cs :=
  Text.replaceFrom_of_not_infix (restored_paramless cs)

/-- Normalized texts have their colons in pairs and no marker of casts, restored texts have no marker of
parameters, and neither changes when it is done again. So no marker of parameters is left in a text that
is formatted. -/
theorem normal_forms :
    (∀ text, EvenRuns (normalize text).toList ∧ ¬ castMarker.toList <:+: (normalize text).toList ∧
      normalize (normalize text) = normalize text) ∧
    (∀ text, ¬ paramMarker.toList <:+: (restore text).toList ∧
      restore (restore text) = restore text) ∧
    ∀ style sql out, format style sql = .ok out → ¬ paramMarker.toList <:+: out.toList := by
  have hnormalize (text : String) : (normalize text).toList = normalized text.toList :=
    normalize_toList text
  refine ⟨fun text => ⟨?_, ?_, ?_⟩, fun text => ⟨?_, ?_⟩, ?_⟩
  · rw [hnormalize]
    exact (normalized_paired _).evenRuns
  · rw [hnormalize]
    exact normalized_castless _
  · rw [← String.toList_inj, hnormalize, hnormalize, normalized_normalized]
  · rw [restore_toList]
    exact restored_paramless _
  · rw [← String.toList_inj, restore_toList, restore_toList, restored_restored]
  · intro style sql out hout
    obtain ⟨statements, -, hout⟩ := bind_eq_ok hout
    obtain ⟨trees, -, hout⟩ := bind_eq_ok hout
    cases hout
    rw [restore_toList]
    exact restored_paramless _

/-- A parameter behind a cast comes back as it was. -/
theorem normal_forms_select :
    format {} "select :a::int" = .ok "\nSELECT\n  :a::int\n" ∧
    ¬ paramMarker.toList <:+: "\nSELECT\n  :a::int\n".toList := by
  have hformat : format {} "select :a::int" = .ok "\nSELECT\n  :a::int\n" := by decide +kernel
  exact ⟨hformat, normal_forms.2.2 {} _ _ hformat⟩

end SqlLayout.Placeholder
