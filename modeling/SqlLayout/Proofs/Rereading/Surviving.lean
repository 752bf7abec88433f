import SqlLayout.Format
import SqlLayout.Proofs.Emission
import SqlLayout.Proofs.Restoring

/-!
Laid-out text that comes back once its placeholders were restored. What stands around a text of the tree
is in no marker, so that each of these texts may be looked at alone.
-/

namespace SqlLayout.Layout

open Placeholder (Survives Bounded restored isInert)

variable {s : Style} {ps : List Piece}

/-- A text of a tree that comes back, and that may have any other text behind it. -/
def IsSettled (t : String) : Prop :=
  Survives t.toList ∧ (restored t.toList).getLast? ≠ some ':'

instance : DecidablePred IsSettled :=
  fun _ => inferInstanceAs (Decidable (_ ∧ _))

theorem survives_inert {m cs : List Char} (hm : m.all isInert = true) (h : Survives cs) :
    Survives (m ++ cs) := by
  induction m with
  | nil => exact h
  | cons c m ih =>
    rw [List.all_cons, Bool.and_eq_true] at hm
    exact .cons hm.1 (ih hm.2)

theorem bounded_inert {m cs : List Char} (hm : m.all isInert = true) (hcs : m = [] → Bounded cs) :
    Bounded (m ++ cs) := by
  cases m with
  | nil => exact hcs rfl
  | cons c m =>
    rw [List.all_cons, Bool.and_eq_true] at hm
    exact .inert _ hm.1

theorem joints_inert : ∀ m ∈ joints, m = "::" ∨ m.toList ≠ [] ∧ m.toList.all isInert = true := by
  decide +kernel

theorem indentBy_inert (s : Style) (d : Nat) : (s.indentBy d).toList.all isInert = true := by
  have hunit : s.indent.text.toList.all isInert = true := by cases s.indent <;> decide
  unfold Style.indentBy
  induction d with
  | zero => rfl
  | succ d ih => rw [Text.replicate, String.toList_append, List.all_append, hunit, ih]; rfl

/-- By induction on the pieces; `cs` is the text after them. -/
theorem Laid.survives {a b : Edge} (h : Laid s IsSign a b ps)
    (hps : ∀ t ∈ leafTexts ps, IsSettled t) {cs : List Char}
    (hcs : Survives cs) (hb : b = .bare → Bounded cs) :
    Survives ((Piece.textOf s ps).toList ++ cs) ∧
      (a = .bare → Bounded ((Piece.textOf s ps).toList ++ cs)) := by
  induction h generalizing cs with
  | nil => exact ⟨hcs, hb⟩
  | loose => exact ⟨hcs, nofun⟩
  | @mark a b m ps hm _ ih =>
    have hrest := (ih hps hcs hb).1
    rw [Piece.textOf_cons, Piece.text, String.toList_append, List.append_assoc]
    obtain rfl | ⟨hne, hinert⟩ := joints_inert m hm
    · exact ⟨.colons hrest, fun _ => .colons _⟩
    · exact ⟨survives_inert hinert hrest, fun _ => bounded_inert hinert fun hnil => absurd hnil hne⟩
  | star _ ih =>
    rw [Piece.textOf_cons, Piece.text, String.toList_append, List.append_assoc]
    exact ⟨survives_inert (m := ['*']) (by decide) (ih hps hcs hb).1, nofun⟩
  | empty _ ih => simpa [Piece.text] using ih hps hcs hb
  | lineBreak _ ih =>
    have hrest := (ih hps hcs hb).1
    rw [Piece.textOf_cons, Piece.text, String.toList_append, List.append_assoc]
    exact ⟨survives_inert (m := ['\n']) (by decide) hrest, fun _ => .inert _ (by decide)⟩
  | indent d _ ih =>
    obtain ⟨hrest, hbounded⟩ := ih hps hcs hb
    rw [Piece.textOf_cons, Piece.text, String.toList_append, List.append_assoc]
    exact ⟨survives_inert (indentBy_inert s d) hrest,
      fun ha => bounded_inert (indentBy_inert s d) fun _ => hbounded ha⟩
  | leaf t _ ih =>
    rw [leafTexts_leaf, List.forall_mem_cons] at hps
    obtain ⟨hrest, hbounded⟩ := ih hps.2 hcs hb
    rw [Piece.textOf_cons, Piece.text, String.toList_append, List.append_assoc]
    exact ⟨hps.1.1.append hps.1.2 (hbounded rfl) hrest, nofun⟩
  | @sign b op arg ps hop _ _ _ iharg ih =>
    rw [leafTexts_leaf, leafTexts_append, List.forall_mem_cons, List.forall_mem_append] at hps
    obtain ⟨hrest, hbounded⟩ := ih hps.2.2 hcs hb
    have harg := (iharg hps.2.1 hrest fun _ => hbounded rfl).1
    have hsign : op.toList.all isInert = true := by
      obtain rfl | rfl := hop <;> decide
    rw [Piece.textOf_cons, Piece.textOf_append, Piece.text, String.toList_append, String.toList_append,
      List.append_assoc, List.append_assoc]
    exact ⟨survives_inert hsign harg, nofun⟩

/-- The text of a statement, whatever stands behind it. -/
theorem survives_render {t : Statement} (hsigns : ∀ n ∈ t.nodes, n.Prefixed IsSign)
    (hleaves : ∀ w ∈ leafTexts (t.pieces s), IsSettled w) {cs : List Char} (hcs : Survives cs)
    (hbounded : Bounded cs) : Survives ((t.render s).toList ++ cs) :=
  ((statement_laid s t hsigns).survives hleaves hcs fun _ => hbounded).1

theorem survives_statements {ts : List Statement} (hsigns : ∀ t ∈ ts, ∀ n ∈ t.nodes, n.Prefixed IsSign)
    (hleaves : ∀ t ∈ ts, ∀ w ∈ leafTexts (t.pieces s), IsSettled w) :
    Survives ((Text.joinWith ";" (ts.map fun t => "\n" ++ t.render s)).toList ++ ['\n']) := by
  have hend : Survives ['\n'] := by decide
  induction ts with
  | nil => exact hend
  | cons t ts ih =>
    have ht (cs : List Char) (hcs : Survives cs) (hbounded : Bounded cs) :
        Survives ('\n' :: ((t.render s).toList ++ cs)) :=
      .cons (by decide) (survives_render (hsigns t List.mem_cons_self)
        (hleaves t List.mem_cons_self) hcs hbounded)
    cases ts with
    | nil => simpa [Text.joinWith] using ht _ hend (.inert [] (by decide))
    | cons u ts =>
      have hrest := ih (fun v hv => hsigns v (List.mem_cons_of_mem t hv)) fun v hv =>
          hleaves v (List.mem_cons_of_mem t hv)
      simpa [Text.joinWith] using ht _ (.cons (c := ';') (by decide) hrest) (.inert _ (by decide))

end SqlLayout.Layout

namespace SqlLayout

open Layout

/-- A script is read as it was laid out if each of its texts comes back. -/
theorem normalize_restore_renderScript {s : Style} {ts : List Statement}
    (hsigns : ∀ t ∈ ts, ∀ n ∈ t.nodes, n.Prefixed IsSign)
    (hleaves : ∀ t ∈ ts, ∀ w ∈ leafTexts (t.pieces s), IsSettled w) :
    Placeholder.normalize (Placeholder.restore (renderScript s ts)) = renderScript s ts := by
  have hsurvives := survives_statements hsigns hleaves
  rw [← String.toList_inj, Placeholder.normalize_toList, Placeholder.restore_toList, renderScript,
    String.toList_append]
  exact hsurvives

end SqlLayout
